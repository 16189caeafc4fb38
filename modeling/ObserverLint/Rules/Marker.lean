import ObserverLint.Rule
import ObserverLint.Text.Lines
import ObserverLint.Text.Search

namespace ObserverLint

structure Marker where
  name : String
  code : String
  text : String
  severity : Severity := .error

namespace Marker

def isOn (m : Marker) (line : List Char) : Bool := (Text.cut? m.text.toList line).isSome

def violation (m : Marker) (path : Path) (line : Nat) : Violation where
  code := m.code
  rule := m.name
  severity := m.severity
  location := { file := path, line, column := 1 }
  message := "marker found"

def check (m : Marker) (path : Path) (file : SourceFile) : List Violation :=
  (Text.lines file.text.toList).zipIdx.filterMap fun (line, i) =>
    if m.isOn line then some (m.violation path (i + 1)) else none

def rule (m : Marker) : Rule where
  name := m.name
  code := m.code
  defaultSeverity := m.severity
  check := m.check

end Marker

end ObserverLint
