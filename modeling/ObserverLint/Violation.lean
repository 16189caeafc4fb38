import ObserverLint.Path
import ObserverLint.Severity
import ObserverLint.Tree.Node

namespace ObserverLint

structure Location where
  file : Path
  line : Nat
  column : Nat
  /-- Byte offset of the finding in its file. -/
  offset : Nat := 0
  /-- Length of the finding in bytes. -/
  length : Nat := 0
deriving DecidableEq, Repr, Inhabited

namespace Location

def ofPlace (file : Path) (source : String) (p : Place) : Location :=
  let position := Text.positionAt source p.start
  ⟨file, position.line, position.column, p.start, p.stop - p.start⟩

end Location

structure Suggestion where
  message : String
deriving DecidableEq, Repr, Inhabited

structure Violation where
  /-- The short code of the rule. -/
  code : String
  /-- The name of the rule. -/
  rule : String
  severity : Severity
  location : Location
  message : String
  messageId : Option String := none
  suggestion : Option Suggestion := none
  /-- Where the rule is documented. -/
  docRef : Option String := none
deriving DecidableEq, Repr, Inhabited

namespace Violation

/-- The violation on one line, without the reference to its documentation. -/
def compact (v : Violation) : String :=
  s!"{v.location.file.text}:{v.location.line}:{v.location.column}: " ++
    s!"{v.severity.label} [{v.code}] {v.message}"

def display (v : Violation) : String :=
  match v.docRef with
  | some ref => s!"{v.compact} (see: {ref})"
  | none => v.compact

def format (v : Violation) : String :=
  s!"{v.code} {v.rule} at {v.location.file.text}:{v.location.line}:{v.location.column}\n" ++
    s!"  {v.severity.label}: {v.message}\n" ++
    (match v.suggestion with
      | some hint => s!"  = help: {hint.message}\n"
      | none => "") ++
    (match v.docRef with
      | some ref => s!"  = see: {ref}\n"
      | none => "")

end Violation

end ObserverLint
