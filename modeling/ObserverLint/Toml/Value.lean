namespace ObserverLint.Toml

structure Date where
  year : Nat
  month : Nat
  day : Nat
deriving DecidableEq, Repr

structure Time where
  hour : Nat
  minute : Nat
  second : Nat
  nanosecond : Nat := 0
deriving DecidableEq, Repr

inductive Offset where
  | zulu
  | custom (east : Bool) (hour minute : Nat)
deriving DecidableEq, Repr

structure Moment where
  date : Option Date := none
  time : Option Time := none
  offset : Option Offset := none
deriving DecidableEq, Repr

/-- How a table came about, which decides whether a later line may add to it. -/
inductive Origin where
  /-- Written in braces; nothing can be added to it. -/
  | inline
  /-- Named by a header of its own. -/
  | header
  /-- Named on the way by the header of a table below it. -/
  | implied
  /-- Named by a dotted key. -/
  | dotted
deriving DecidableEq, Repr

inductive Value where
  | string (text : String)
  | integer (n : Int)
  /-- A floating-point number, as written. -/
  | float (literal : String)
  | boolean (b : Bool)
  | moment (m : Moment)
  | array (items : List Value)
  | table (origin : Origin) (fields : List (String × Value))
  /-- Tables under a repeated header in double brackets. -/
  | tables (items : List Value)
deriving Repr, Inhabited

abbrev Fields := List (String × Value)

namespace Value

def typeName : Value → String
  | string _ => "string"
  | integer _ => "integer"
  | float _ => "float"
  | boolean _ => "boolean"
  | moment _ => "datetime"
  | array _ | tables _ => "array"
  | table _ _ => "table"

end Value

def padded (width n : Nat) : String :=
  let digits := toString n
  "".pushn '0' (width - digits.length) ++ digits

namespace Moment

def dateText (d : Date) : String := s!"{padded 4 d.year}-{padded 2 d.month}-{padded 2 d.day}"

def timeText (t : Time) : String :=
  let whole := s!"{padded 2 t.hour}:{padded 2 t.minute}:{padded 2 t.second}"
  if t.nanosecond = 0 then whole
  else
    let digits := (padded 9 t.nanosecond).toList.reverse.dropWhile (· = '0')
    whole ++ "." ++ String.ofList digits.reverse

def offsetText : Offset → String
  | .zulu => "Z"
  | .custom east hour minute =>
    (if east then "+" else "-") ++ s!"{padded 2 hour}:{padded 2 minute}"

def text (m : Moment) : String :=
  let date := (m.date.map dateText).getD ""
  let time := (m.time.map timeText).getD ""
  let between := if m.date.isSome && m.time.isSome then "T" else ""
  date ++ between ++ time ++ (m.offset.map offsetText).getD ""

end Moment

end ObserverLint.Toml
