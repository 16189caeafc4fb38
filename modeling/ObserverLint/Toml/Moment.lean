import ObserverLint.Toml.Scalar

namespace ObserverLint.Toml

def freeOffset? (east : Bool) (cs : Rest) : Option (Offset × Rest) := do
  let (hour, cs) ← field? 2 0 99 cs
  let (minute, cs) ← field? 2 0 99 (← symbol? ':' cs)
  let total := hour * 60 + minute
  if total ≤ 24 * 60 then some (.custom east (total / 60) (total % 60), cs) else none

/-- The offset that is all that is left of a text, if anything is. -/
def lastOffset? : Rest → Option (Option Offset)
  | [] => some none
  | c :: cs => do
    let (offset, rest) ←
      if c = 'Z' ∨ c = 'z' then some (.zulu, cs)
      else if c = '+' ∨ c = '-' then freeOffset? (c = '+') cs
      else none
    if rest.isEmpty then some (some offset) else none

/-- The time of day after a date, which is there if a mark of it is. -/
def freeTimeAfterDate? : Rest → Option (Option Time × Rest)
  | [] => some (none, [])
  | c :: cs =>
    if c = 'T' ∨ c = 't' ∨ c = ' ' then (timeWithin? 24 cs).map fun (time, cs) => (some time, cs)
    else some (none, c :: cs)

/-- A moment in a text of its own is read with more leave than in a document: the hour may be 24, an
offset may follow a date alone, and it may have up to 99 minutes as long as it does not exceed a
day. -/
def Moment.ofText? (text : String) : Option Moment :=
  match text.toList with
  | a :: b :: ':' :: cs => do
    let (time, rest) ← timeWithin? 24 (a :: b :: ':' :: cs)
    if rest.isEmpty then some { time := some time } else none
  | cs => do
    let (date, cs) ← date? cs
    let (time, cs) ← freeTimeAfterDate? cs
    some ⟨some date, time, ← lastOffset? cs⟩

end ObserverLint.Toml
