namespace ObserverLint

inductive Severity where
  | info
  | warning
  | error
deriving DecidableEq, Repr, Inhabited

namespace Severity

def label : Severity → String
  | info => "info"
  | warning => "warning"
  | error => "error"

def rank : Severity → Nat
  | info => 0
  | warning => 1
  | error => 2

instance : LE Severity := ⟨fun a b => a.rank ≤ b.rank⟩

instance (a b : Severity) : Decidable (a ≤ b) := inferInstanceAs (Decidable (a.rank ≤ b.rank))

instance : Ord Severity := ⟨fun a b => compare a.rank b.rank⟩

/-- A name of no severity, in lower case. -/
structure Unknown where
  name : String
deriving DecidableEq, Repr

def Unknown.message (u : Unknown) : String := s!"unknown severity '{u.name}'"

/-- Reads a severity by name. Letters count in either case, and `warn` is short for `warning`. -/
def parse (text : String) : Except Unknown Severity :=
  match text.map Char.toLower with
  | "info" => .ok info
  | "warning" => .ok warning
  | "warn" => .ok warning
  | "error" => .ok error
  | name => .error ⟨name⟩

def ofLabel? : String → Option Severity
  | "info" => some info
  | "warning" => some warning
  | "error" => some error
  | _ => none

end Severity

end ObserverLint
