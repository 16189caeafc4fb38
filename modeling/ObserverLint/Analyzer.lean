import ObserverLint.Allowance
import ObserverLint.Config.Basic
import ObserverLint.Glob
import ObserverLint.Report
import ObserverLint.Rule
import ObserverLint.Walk

namespace ObserverLint

inductive AnalysisError where
  | unreadable (fault : FileFault)
  | walk (fault : Walk.Fault)
  /-- A file that does not parse, where that is not tolerated. -/
  | broken (path : Path)
  | badPattern (fault : Glob.Fault)

def AnalysisError.message : AnalysisError → String
  | unreadable fault => s!"IO error: {fault.message}"
  | walk fault => s!"Walk error: {fault.message}"
  | broken path => s!"Parse error in {path.text}: syntax errors in file"
  | badPattern fault => s!"Invalid glob pattern: {fault.message}"

structure Analyzer where
  /-- The absolute path of the directory or file to analyse. -/
  root : Path
  rules : List Rule
  excludes : List Glob
  config : Config
  failOnParseError : Bool

namespace Analyzer

structure Setup where
  root : Option Path := none
  rules : List Rule := []
  excludes : List String := []
  config : Option Config := none
  failOnParseError : Bool := false

/-- The patterns that hold if none are given. -/
def defaultExcludes : List String := ["**/node_modules/**", "**/dist/**"]

namespace Setup

def configured (s : Setup) : List String := (s.config.map fun c => c.analyzer.exclude).getD []

/-- The patterns given for the run, then those of the configuration. -/
def givenExcludes (s : Setup) : List String := s.excludes ++ s.configured

def patterns (s : Setup) : List String :=
  match s.givenExcludes with
  | [] => defaultExcludes
  | given => given

/-- The root given for the run, or that of the configuration, or the current directory. -/
def rootPath (s : Setup) : Path :=
  (s.root.orElse fun _ => s.config.map fun c => c.analyzer.root).getD ⟨"."⟩

def build (s : Setup) (current : Path) : Except AnalysisError Analyzer := do
  let excludes ← s.patterns.mapM fun p => (Glob.parse p).mapError .badPattern
  pure {
    root := current.join s.rootPath
    rules := s.rules
    excludes
    config := s.config.getD {}
    failOnParseError := s.failOnParseError }

end Setup

/-- The directory that reported paths start from. -/
def baseDir (a : Analyzer) (disk : Disk) : Path :=
  if disk.isFile a.root then a.root.parent?.getD a.root else a.root

/-- Where the text of a violation's file is read again to show it. -/
def snippetPath (a : Analyzer) (disk : Disk) (v : Violation) : Path :=
  (a.baseDir disk).join v.location.file

/-- The warning in place of a finding that is allowed without the reason its rule asks for. -/
def missingReason (rule : Rule) (location : Location) : Violation where
  code := rule.code
  rule := rule.name
  severity := .warning
  location := location
  message := s!"Allow directive for '{rule.name}' is missing required reason"
  suggestion := some ⟨"Add reason=\"...\" to explain why this exception is necessary"⟩

def settle (rule : Rule) (text : String) (v : Violation) : Option Violation :=
  match Allowance.check text v.location.line rule.name with
  | .denied => some v
  | .allowed (some _) => none
  | .allowed none => if rule.requiresReason then some (missingReason rule v.location) else none

def withSeverity (override : Option Severity) (v : Violation) : Violation :=
  match override with
  | some severity => { v with severity }
  | none => v

def reportOf (config : Config) (path : Path) (file : SourceFile) (rule : Rule) : List Violation :=
  ((rule.check path file).map (withSeverity (config.ruleSeverity? rule.name))).filterMap
    (settle rule file.text)

def reports (a : Analyzer) (path : Path) (file : SourceFile) : List Violation :=
  (a.rules.filter fun rule => a.config.isRuleEnabled rule.name).flatMap
    (reportOf a.config path file)

/-- What is found in a text, reported at its path below the base directory. Files in no known
dialect hold nothing. -/
def analyzeSource (a : Analyzer) (grammar : Grammar) (base path : Path) (text : String) :
    Except AnalysisError (List Violation) :=
  match Dialect.ofPath? path with
  | none => .ok []
  | some dialect =>
    let file := SourceFile.parse grammar path dialect text
    if file.hasErrors && a.failOnParseError then .error (.broken path)
    else .ok (a.reports (path.relativeTo base) file)

def ruleLog (config : Config) (path : Path) (file : SourceFile) (rule : Rule) : List LogEntry :=
  if config.isRuleEnabled rule.name then rule.log path file
  else [⟨.debug, .analyzer, s!"Skipping disabled rule: {rule.name}"⟩]

def sourceLog (a : Analyzer) (grammar : Grammar) (base path : Path) (text : String) :
    List LogEntry :=
  match Dialect.ofPath? path with
  | none => [⟨.debug, .analyzer, s!"Skipping unsupported file: {path.text}"⟩]
  | some dialect =>
    let file := SourceFile.parse grammar path dialect text
    ⟨.debug, .analyzer, s!"Analyzing: {path.text} ({dialect.name})"⟩ ::
      if file.hasErrors then
        if a.failOnParseError then []
        else
          ⟨.warn, .analyzer, s!"{path.text} has syntax errors in file; analyzing anyway"⟩ ::
            a.rules.flatMap (ruleLog a.config (path.relativeTo base) file)
      else a.rules.flatMap (ruleLog a.config (path.relativeTo base) file)

/-- Whether a pattern excludes a file. Only its path below the base directory counts. -/
def isExcluded (a : Analyzer) (base path : Path) : Bool :=
  a.excludes.any fun glob => glob.isMatch (path.relativeTo base).text

def isSource (disk : Disk) (path : Path) : Bool :=
  disk.isFile path && (Dialect.ofPath? path).isSome

/-- The files to analyse among those found, in the order of their paths. -/
def selected (a : Analyzer) (disk : Disk) (found : List Path) : List Path :=
  (found.filter fun p => isSource disk p && !a.isExcluded (a.baseDir disk) p).mergeSort fun p q =>
    (p.order q).isLE

def analyzeFile (a : Analyzer) (disk : Disk) (grammar : Grammar) (path : Path) :
    Except AnalysisError (List Violation) := do
  let text ← (disk.readText path).mapError .unreadable
  a.analyzeSource grammar (a.baseDir disk) path text

def analyzeFound (a : Analyzer) (disk : Disk) (grammar : Grammar) (found : List Path) :
    Except AnalysisError Report := do
  let files := a.selected disk found
  let blocks ← files.mapM (a.analyzeFile disk grammar)
  pure (Report.sort ⟨blocks.flatten, files.length⟩)

def discover (a : Analyzer) (disk : Disk) : Except AnalysisError (List Path) :=
  (Walk.entries disk a.root a.config.analyzer.respectGitignore).mapError .walk

def analyze (a : Analyzer) (disk : Disk) (grammar : Grammar) : Except AnalysisError Report := do
  a.analyzeFound disk grammar (← a.discover disk)

/-- What is said while the files are analysed, up to the first that fails. -/
def filesLog (a : Analyzer) (disk : Disk) (grammar : Grammar) : List Path → List LogEntry
  | [] => []
  | path :: paths =>
    match disk.readText path with
    | .error _ => []
    | .ok text =>
      a.sourceLog grammar (a.baseDir disk) path text ++
        match a.analyzeSource grammar (a.baseDir disk) path text with
        | .error _ => []
        | .ok _ => a.filesLog disk grammar paths

def foundLog (a : Analyzer) (disk : Disk) (grammar : Grammar) (found : List Path) :
    List LogEntry :=
  let base := a.baseDir disk
  let excluded := found.filter fun p => isSource disk p && a.isExcluded base p
  let files := a.selected disk found
  excluded.map (fun p => ⟨.debug, .analyzer, s!"Excluding: {p.text}"⟩) ++
    ⟨.info, .analyzer, s!"Found {files.length} files to analyze"⟩ :: a.filesLog disk grammar files ++
    match a.analyzeFound disk grammar found with
    | .error _ => []
    | .ok report => [⟨.info, .analyzer,
        s!"Analysis complete: {report.violations.length} violations in " ++
          s!"{report.filesChecked} files"⟩]

def log (a : Analyzer) (disk : Disk) (grammar : Grammar) : List LogEntry :=
  ⟨.info, .analyzer, s!"Starting analysis at {a.root.text}"⟩ ::
    match a.discover disk with
    | .error _ => []
    | .ok found => a.foundLog disk grammar found

end Analyzer

end ObserverLint
