import ObserverLint.CommandLine.Arguments
import ObserverLint.CommandLine.Failure
import ObserverLint.Config.Decode
import ObserverLint.Config.Resolve
import ObserverLint.Rules.Catalogue
import ObserverLint.Text.Blank

namespace ObserverLint

namespace Config

def load (disk : Disk) (path : Path) : Except ConfigError Config :=
  match disk.readText path with
  | .ok text => parse text
  | .error fault => .error (.unreadable path fault.message)

end Config

namespace CommandLine

inductive CheckError where
  | config (path : Path) (error : ConfigError)
  | threshold (error : ConfigError)
  | rules (error : ConfigError)
  | setup (error : AnalysisError)
  | analysis (error : AnalysisError)

def CheckError.failure : CheckError → Failure
  | config path error => ⟨s!"Failed to load config: {path.text}", error.causes⟩
  | threshold error => ⟨"Invalid fail_on in config", error.causes⟩
  | rules error => ⟨"Invalid rule configuration", error.causes⟩
  | setup error => ⟨"Failed to build analyzer", error.causes⟩
  | analysis error => ⟨"Analysis failed", error.causes⟩

def wantedNames (filter : String) : List String :=
  (((Text.split ',' filter.toList).map Text.trim).filter fun n => !n.isEmpty).map String.ofList

def isWanted (names : List String) (rule : Rule) : Bool :=
  names.contains rule.name || names.contains rule.code

/-- The rules of a configuration; the command line may overrule whether a single handler is in
order. -/
def configuredRules (config : Config) (allowNext : Option Bool) :
    Except ConfigError (List Rule) := do
  let rules ← Catalogue.rulesFromConfig config
  match allowNext with
  | none => pure rules
  | some allowNext =>
    -- The severity still comes from the configuration.
    let settings ← PreferObserver.Settings.ofConfig
      ((config.rule? PreferObserver.ruleName).getD {})
    pure (rules.map fun rule =>
      if rule.name = PreferObserver.ruleName then PreferObserver.rule { settings with allowNext }
      else rule)

/-- The rules that a list keeps; without a list it is all of them. -/
def kept : Option String → List Rule → List Rule
  | none, rules => rules
  | some text, rules => rules.filter (isWanted (wantedNames text))

def selectRules (config : Config) (filter : Option String) (allowNext : Option Bool) :
    Except ConfigError (List Rule) :=
  (configuredRules config allowNext).map (kept filter)

def filterLog (rules : List Rule) (filter : String) : List LogEntry :=
  ((wantedNames filter).filter fun name => !rules.any (isWanted [name])).map fun name =>
    ⟨.warn, .check, s!"Unknown rule: {name}"⟩

def selectLog (config : Config) (filter : Option String) (allowNext : Option Bool) :
    List LogEntry :=
  Catalogue.unknownRules config ++
    match configuredRules config allowNext, filter with
    | .ok rules, some filter => filterLog rules filter
    | _, _ => []

def loadConfig (disk : Disk) : Option ConfigFile → Except CheckError Config
  | none => .ok {}
  | some file => (Config.load disk file.path).mapError (.config file.path)

def setupOf (options : CheckOptions) (config : Config) (rules : List Rule) : Analyzer.Setup where
  root := some options.path
  rules
  excludes := options.excludes
  config := some config

def analyzerFor (current : Path) (options : CheckOptions) (config : Config) (rules : List Rule) :
    Except AnalysisError Analyzer :=
  (setupOf options config rules).build current

/-- All that is known before the files are looked at: the threshold and the analyzer. -/
def prepare (disk : Disk) (file : Option ConfigFile) (options : CheckOptions) :
    Except CheckError (Severity × Analyzer) := do
  let config ← loadConfig disk file
  let threshold ← config.threshold.mapError .threshold
  let rules ← (selectRules config options.rules options.allowNext).mapError .rules
  let analyzer ← (analyzerFor disk.current options config rules).mapError .setup
  pure (threshold, analyzer)

structure Checked where
  threshold : Severity
  analyzer : Analyzer
  report : Report

def check (disk : Disk) (grammar : Grammar) (file : Option ConfigFile) (options : CheckOptions) :
    Except CheckError Checked := do
  let (threshold, analyzer) ← prepare disk file options
  let report ← (analyzer.analyze disk grammar).mapError .analysis
  pure { threshold, analyzer, report }

def checkLog (disk : Disk) (grammar : Grammar) (file : Option ConfigFile)
    (options : CheckOptions) : List LogEntry :=
  let found := match file with
    | some ⟨path, true⟩ => [⟨.info, .check, s!"Using global config: {path.text}"⟩]
    | _ => []
  let chosen := match loadConfig disk file with
    | .ok config =>
      match config.threshold with
      | .ok _ => selectLog config options.rules options.allowNext
      | .error _ => []
    | .error _ => []
  let analysed := match prepare disk file options with
    | .ok (_, analyzer) =>
      ⟨.info, .check, s!"Analyzing {Text.quoted options.path.text} with " ++
        s!"{analyzer.rules.length} rules"⟩ :: analyzer.log disk grammar
    | .error _ => []
  found ++ chosen ++ analysed

end CommandLine

end ObserverLint
