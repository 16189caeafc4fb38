import ObserverLint.Violation

namespace ObserverLint

inductive Urgency where
  | error
  | warning
  | advice
deriving DecidableEq, Repr

namespace Urgency

def name : Urgency → String
  | error => "Error"
  | warning => "Warning"
  | advice => "Advice"

def ofSeverity : Severity → Urgency
  | .error => error
  | .warning => warning
  | .info => advice

end Urgency

structure Note where
  offset : Nat
  length : Nat
  text : String
deriving DecidableEq, Repr

structure NamedText where
  name : String
  text : String
deriving DecidableEq, Repr

structure Diagnostic where
  message : String
  code : String
  urgency : Urgency
  help : Option String
  url : Option String
  notes : List Note
  /-- The offending file. -/
  source : Option NamedText := none
deriving DecidableEq, Repr

/-- A way to draw diagnostics. It may fail, for instance at a note that lies outside of the text. -/
abbrev Drawing := Diagnostic → Option String

namespace Diagnostic

def ofViolation (v : Violation) : Diagnostic where
  message := v.message
  code := v.code
  urgency := .ofSeverity v.severity
  help := v.suggestion.map Suggestion.message
  url := v.docRef
  notes := [⟨v.location.offset, v.location.length, v.rule⟩]

def withSource (d : Diagnostic) (text : String) (name : String := "") : Diagnostic :=
  { d with source := some { name, text } }

end Diagnostic

end ObserverLint
