import ObserverLint.CommandLine.Arguments
import ObserverLint.Analyzer
import ObserverLint.Diagnostic
import ObserverLint.Violation.Json

namespace ObserverLint.CommandLine

/-- A file goes by its components, however its path is spelled. -/
def inSameFile (v w : Violation) : Bool :=
  v.location.file.components == w.location.file.components

/-- The text to show a violation in. A file is read once, for the first violation in it. -/
def source? (disk : Disk) (a : Analyzer) (r : Report) (v : Violation) : Option String :=
  (r.violations.find? (inSameFile v)).bind fun first =>
    (disk.readText (a.snippetPath disk first)).toOption

/-- A violation as it is drawn, or on one line if it cannot be drawn. -/
def drawn (draw : Drawing) (source : Option String) (v : Violation) : String :=
  let plain := Diagnostic.ofViolation v
  let diagnostic := match source with
    | some text => plain.withSource text v.location.file.text
    | none => plain
  (draw diagnostic).getD (v.display ++ "\n")

def summaryColour (r : Report) : String :=
  if r.count .error > 0 then "\x1b[31m"
  else if r.count .warning > 0 then "\x1b[33m"
  else "\x1b[32m"

namespace Format

def render (draw : Drawing) (disk : Disk) (a : Analyzer) (r : Report) : Format → String
  | text =>
    String.join (r.violations.map fun v => drawn draw (source? disk a r v) v) ++
      s!"{summaryColour r}{r.summary}\x1b[0m\n"
  | json => r.toJson.pretty ++ "\n"
  | compact => String.join (r.violations.map fun v => v.compact ++ "\n")

def log (disk : Disk) (a : Analyzer) (r : Report) : Format → List LogEntry
  | text => (r.violations.eraseDupsBy inSameFile).filterMap fun v =>
    match disk.readText (a.snippetPath disk v) with
    | .ok _ => none
    | .error fault =>
      some ⟨.debug, .output, s!"No snippet for {v.location.file.text}: {fault.message}"⟩
  | json => []
  | compact => []

end Format

end ObserverLint.CommandLine
