import ObserverLint.Json.Decode
import ObserverLint.Json.Parser
import ObserverLint.Report

namespace ObserverLint

open Json

namespace Location

def toJson (l : Location) : Json :=
  .object [("file", .string l.file.text), ("line", .nat l.line), ("column", .nat l.column),
    ("offset", .nat l.offset), ("length", .nat l.length)]

end Location

namespace Suggestion

def toJson (s : Suggestion) : Json := .object [("message", .string s.message)]

end Suggestion

namespace Violation

/-- A field that is left out when it has no value. -/
def optionalField (key : String) : Option String → List (String × Json)
  | some text => [(key, .string text)]
  | none => []

/-- An absent message identifier or documentation reference is left out, an absent suggestion is
written as null. -/
def toJson (v : Violation) : Json :=
  .object <|
    [("code", .string v.code), ("rule", .string v.rule), ("severity", .string v.severity.label),
      ("location", v.location.toJson), ("message", .string v.message)] ++
    optionalField "message_id" v.messageId ++
    [("suggestion", (v.suggestion.map Suggestion.toJson).getD .null)] ++
    optionalField "doc_ref" v.docRef

end Violation

namespace Report

def toJson (r : Report) : Json :=
  .object [("violations", .array (r.violations.map Violation.toJson)),
    ("files_checked", .nat r.filesChecked)]

end Report

namespace Severity

/-- A severity by its label, which may also be the only key of an object. -/
def ofJson? : Json → Option Severity
  | .string label => ofLabel? label
  | .object [(label, .null)] => ofLabel? label
  | _ => none

end Severity

namespace Location

def ofParts? (file line column offset length : Json) : Option Location := do
  some ⟨⟨← file.text?⟩, ← line.word?, ← column.word?, ← offset.word?, ← length.word?⟩

def ofJson? : Json → Option Location
  | .array [file, line, column, offset, length] => ofParts? file line column offset length
  | .object fields => do
    ofParts? (← required? "file" fields) (← required? "line" fields) (← required? "column" fields)
      (← required? "offset" fields) (← required? "length" fields)
  | _ => none

end Location

namespace Suggestion

def ofJson? : Json → Option (Option Suggestion)
  | .null => some none
  | .array [message] => do some (some ⟨← message.text?⟩)
  | .object fields => do some (some ⟨← (← required? "message" fields).text?⟩)
  | _ => none

end Suggestion

namespace Violation

def ofParts? (code rule severity location message messageId suggestion docRef : Json) :
    Option Violation := do
  some {
    code := ← code.text?
    rule := ← rule.text?
    severity := ← Severity.ofJson? severity
    location := ← Location.ofJson? location
    message := ← message.text?
    messageId := ← messageId.optionalText?
    suggestion := ← Suggestion.ofJson? suggestion
    docRef := ← docRef.optionalText? }

def ofJson? : Json → Option Violation
  | .array [code, rule, severity, location, message, messageId, suggestion] =>
    ofParts? code rule severity location message messageId suggestion .null
  | .array [code, rule, severity, location, message, messageId, suggestion, docRef] =>
    ofParts? code rule severity location message messageId suggestion docRef
  | .object fields => do
    ofParts? (← required? "code" fields) (← required? "rule" fields)
      (← required? "severity" fields) (← required? "location" fields)
      (← required? "message" fields) (← optional? "message_id" fields)
      (← optional? "suggestion" fields) (← optional? "doc_ref" fields)
  | _ => none

def parse? (text : String) : Option Violation := (Json.parse? text).bind ofJson?

def render (v : Violation) : String := v.toJson.compact

end Violation

end ObserverLint
