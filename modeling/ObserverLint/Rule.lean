import ObserverLint.Log
import ObserverLint.SourceFile
import ObserverLint.Violation

namespace ObserverLint

inductive RuleKind where
  | problem
  | suggestion
  | layout
deriving DecidableEq, Repr, Inhabited

def RuleKind.label : RuleKind → String
  | problem => "problem"
  | suggestion => "suggestion"
  | layout => "layout"

structure Rule where
  name : String
  code : String
  description : String := ""
  kind : RuleKind := .problem
  recommended : Bool := false
  defaultSeverity : Severity := .error
  /-- Whether a directive that allows a finding must say why. -/
  requiresReason : Bool := defaultSeverity == .error
  /-- The findings in a file, located in the file of the given path. -/
  check : Path → SourceFile → List Violation
  /-- What the rule has to say while it checks. -/
  log : Path → SourceFile → List LogEntry := fun _ _ => []

end ObserverLint
