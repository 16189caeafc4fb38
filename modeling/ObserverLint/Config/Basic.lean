import ObserverLint.Path
import ObserverLint.Severity
import ObserverLint.Toml.Value

namespace ObserverLint

inductive OptionFault where
  | unknown (expected : List String)
  | notBoolean (found : String)
deriving DecidableEq, Repr

def OptionFault.message : OptionFault → String
  | unknown expected => "unknown option; expected one of: " ++ ", ".intercalate expected
  | notBoolean found => s!"expected a boolean, found {found}"

inductive ConfigError where
  /-- The file cannot be read. -/
  | unreadable (path : Path) (reason : String)
  /-- The text is not TOML, or a setting has the wrong type. -/
  | malformed
  /-- The threshold is no severity. -/
  | threshold (fault : Severity.Unknown)
  | invalidOption (rule key : String) (fault : OptionFault)
deriving DecidableEq, Repr

def ConfigError.message : ConfigError → String
  | unreadable path reason => s!"Failed to read config file {path.text}: {reason}"
  | malformed => "Failed to parse config:"
  | threshold fault => s!"Failed to parse config: {fault.message}"
  | invalidOption rule key fault => s!"Invalid option '{key}' for rule '{rule}': {fault.message}"

structure RuleConfig where
  enabled : Option Bool := none
  severity : Option Severity := none
  /-- All other settings, which the rule itself understands. -/
  options : Toml.Fields := []
deriving Repr, Inhabited

namespace RuleConfig

def option? (c : RuleConfig) (key : String) : Option Toml.Value :=
  (c.options.find? fun o => o.1 == key).map Prod.snd

/-- A boolean option, or the default if it is absent or of another type. -/
def getBool (c : RuleConfig) (key : String) (default : Bool) : Bool :=
  match c.option? key with
  | some (.boolean b) => b
  | _ => default

def expectBool (c : RuleConfig) (rule key : String) : Except ConfigError (Option Bool) :=
  match c.option? key with
  | none => .ok none
  | some (.boolean b) => .ok (some b)
  | some other => .error (.invalidOption rule key (.notBoolean other.typeName))

def unknownOptions (c : RuleConfig) (known : List String) : List String :=
  ((c.options.map Prod.fst).filter fun key => !known.contains key).mergeSort fun a b => !(b < a)

end RuleConfig

structure AnalyzerConfig where
  root : Path := ⟨"."⟩
  exclude : List String := []
  respectGitignore : Bool := true
deriving Repr, Inhabited

structure Config where
  /-- The least severity that makes a run fail. -/
  failOn : Option String := none
  analyzer : AnalyzerConfig := {}
  rules : List (String × RuleConfig) := []
deriving Repr, Inhabited

namespace Config

def rule? (c : Config) (name : String) : Option RuleConfig :=
  (c.rules.find? fun r => r.1 == name).map Prod.snd

def isRuleEnabled (c : Config) (name : String) : Bool :=
  ((c.rule? name).bind RuleConfig.enabled).getD true

def ruleSeverity? (c : Config) (name : String) : Option Severity :=
  (c.rule? name).bind RuleConfig.severity

/-- The least severity that makes a run fail; it is error if the configuration names none. -/
def threshold (c : Config) : Except ConfigError Severity :=
  match c.failOn with
  | none => .ok .error
  | some text => (Severity.parse text).mapError .threshold

end Config

end ObserverLint
