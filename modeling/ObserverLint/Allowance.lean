import ObserverLint.Text.Blank
import ObserverLint.Text.Lines
import ObserverLint.Text.Search

namespace ObserverLint

/-- A directive such as `// rxlint: allow(rule) reason="why"`. It covers its own line and the next
one. -/
structure Directive where
  rules : List String
  reason : Option String := none
deriving DecidableEq, Repr

namespace Directive

open Text

/-- The comment on a line: all that follows the first `//`, or else what the first `/*` opens. -/
def comment? (line : List Char) : Option (List Char) :=
  match cut? "//".toList line with
  | some (_, rest) => some (trim rest)
  | none =>
    match cut? "/*".toList line with
    | some (_, rest) => some (trim (before "*/".toList rest))
    | none => none

def reason? (rest : List Char) : Option String := do
  let quoted ← after? ['"'] (trim (← after? "reason=".toList rest))
  let (reason, _) ← cut? ['"'] quoted
  some (String.ofList reason)

def ruleNames (list : List Char) : List String :=
  (((split ',' list).map trim).filter fun name => !name.isEmpty).map String.ofList

def read? (comment : List Char) : Option Directive := do
  let body ← after? "rxlint:".toList comment
  let allowed ← after? "allow(".toList (trim body)
  let (list, rest) ← cut? [')'] (trim allowed)
  match ruleNames list with
  | [] => none
  | rules => some ⟨rules, reason? (trim rest)⟩

def parse? (line : List Char) : Option Directive := (comment? line).bind read?

/-- Whether the directive speaks of the rule; `all` speaks of every rule. -/
def covers (d : Directive) (rule : String) : Bool := d.rules.contains rule || d.rules.contains "all"

/-- The directive on line `n` of a text, counting from one. -/
def onLine? (text : String) (n : Nat) : Option Directive := (line? text n).bind parse?

end Directive

inductive Allowance where
  | denied
  | allowed (reason : Option String)
deriving DecidableEq, Repr

namespace Allowance

def isAllowed : Allowance → Bool
  | denied => false
  | allowed _ => true

def reason? : Allowance → Option String
  | denied => none
  | allowed reason => reason

/-- Whether a finding of the rule on a line is allowed. The directive on the line before is asked
first, then the one on the line itself. -/
def check (text : String) (line : Nat) (rule : String) : Allowance :=
  match ([line - 1, line].filterMap (Directive.onLine? text)).find? (·.covers rule) with
  | some d => allowed d.reason
  | none => denied

end Allowance

end ObserverLint
