import ObserverLint.Config.Basic
import ObserverLint.Toml.Document
import ObserverLint.Toml.Moment

namespace ObserverLint

open Toml (Value Fields)

namespace RuleConfig

def isEmptyValue : Value → Bool
  | .array items => items.isEmpty
  | .tables items => items.isEmpty
  | .table _ fields => fields.isEmpty
  | _ => false

/-- A severity by its label, which may also stand as the only key of a table. -/
def severity? : Value → Option Severity
  | .string label => Severity.ofLabel? label
  | .table _ [(label, content)] => if isEmptyValue content then Severity.ofLabel? label else none
  | _ => none

def bool? : Value → Option Bool
  | .boolean b => some b
  | _ => none

/-- The key under which a moment stands where a table is expected. -/
def momentKey : String := "$__toml_private_datetime"

def keyedMoment? : Value → Fields → Option Value
  | .string text, [] => (Toml.Moment.ofText? text).map .moment
  | _, _ => none

mutual

/-- The value of an option. In it a table with the key for moments in front has to be a moment. -/
def optionValue? : Value → Option Value
  | .array items => (optionItems? items).map .array
  | .tables items => (optionItems? items).map .tables
  | .table origin [] => some (.table origin [])
  | .table origin ((key, v) :: fields) =>
    if key = momentKey then keyedMoment? v fields
    else do
      let first ← optionValue? v
      some (.table origin ((key, first) :: (← optionFields? fields)))
  | v => some v

def optionItems? : List Value → Option (List Value)
  | [] => some []
  | v :: items => do
    let first ← optionValue? v
    some (first :: (← optionItems? items))

def optionFields? : Fields → Option Fields
  | [] => some []
  | (key, v) :: fields => do
    let first ← optionValue? v
    some ((key, first) :: (← optionFields? fields))

end

def add? (c : RuleConfig) (setting : String × Value) : Option RuleConfig :=
  match setting with
  | ("enabled", v) => (bool? v).map fun b => { c with enabled := some b }
  | ("severity", v) => (severity? v).map fun s => { c with severity := some s }
  | (key, v) => (optionValue? v).map fun v => { c with options := c.options ++ [(key, v)] }

def ofValue? : Value → Option RuleConfig
  | .table _ fields => fields.foldlM add? {}
  | .moment m => some { options := [(momentKey, .string m.text)] }
  | _ => none

end RuleConfig

namespace AnalyzerConfig

def string? : Value → Option String
  | .string text => some text
  | _ => none

def strings? : Value → Option (List String)
  | .array items | .tables items => items.mapM string?
  | _ => none

def setRoot? (c : AnalyzerConfig) (v : Value) : Option AnalyzerConfig :=
  (string? v).map fun text => { c with root := ⟨text⟩ }

def setExclude? (c : AnalyzerConfig) (v : Value) : Option AnalyzerConfig :=
  (strings? v).map fun exclude => { c with exclude }

def setGitignore? (c : AnalyzerConfig) (v : Value) : Option AnalyzerConfig :=
  (RuleConfig.bool? v).map fun respectGitignore => { c with respectGitignore }

def add? (c : AnalyzerConfig) : String × Value → Option AnalyzerConfig
  | ("root", v) => c.setRoot? v
  | ("exclude", v) => c.setExclude? v
  | ("respect_gitignore", v) => c.setGitignore? v
  | _ => some c

/-- The settings by position: root, patterns to exclude, and whether ignore files count. -/
def ofItems? : List Value → Option AnalyzerConfig
  | [] => some {}
  | [root] => setRoot? {} root
  | [root, exclude] => do (← setRoot? {} root).setExclude? exclude
  | root :: exclude :: gitignore :: _ => do
    (← (← setRoot? {} root).setExclude? exclude).setGitignore? gitignore

def ofValue? : Value → Option AnalyzerConfig
  | .table _ fields => fields.foldlM add? {}
  | .array items | .tables items => ofItems? items
  | .moment _ => some {}
  | _ => none

end AnalyzerConfig

namespace Config

def rules? : Value → Option (List (String × RuleConfig))
  | .table _ fields =>
    fields.mapM fun (name, v) => (RuleConfig.ofValue? v).map fun c => (name, c)
  | _ => none

def add? (c : Config) : String × Value → Option Config
  | ("fail_on", v) => (AnalyzerConfig.string? v).map fun text => { c with failOn := some text }
  | ("analyzer", v) => (AnalyzerConfig.ofValue? v).map fun analyzer => { c with analyzer }
  | ("rules", v) => (rules? v).map fun rules => { c with rules }
  | _ => some c

/-- Settings of the wrong type are refused. Unknown settings are passed over, except in the table of
a rule, where they are its options. -/
def parse (text : String) : Except ConfigError Config :=
  match (Toml.parse? text).bind fun fields => fields.foldlM add? {} with
  | some c => .ok c
  | none => .error .malformed

end Config

end ObserverLint
