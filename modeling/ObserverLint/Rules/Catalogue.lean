import ObserverLint.Config.Basic
import ObserverLint.Rules.PreferObserver

namespace ObserverLint

namespace PreferObserver

/-- The options of the rule; where both spellings are given the later one here wins. -/
def optionKeys : List String := ["allow_next", "allowNext"]

def Settings.take (s : Settings) (c : RuleConfig) (key : String) : Except ConfigError Settings :=
  (c.expectBool ruleName key).map fun
    | some allowNext => { s with allowNext }
    | none => s

def Settings.ofConfig (c : RuleConfig) : Except ConfigError Settings := do
  match c.unknownOptions optionKeys with
  | key :: _ => .error (.invalidOption ruleName key (.unknown optionKeys))
  | [] =>
    let s ← optionKeys.foldlM (fun s key => s.take c key) ({} : Settings)
    pure { s with severity := c.severity.getD s.severity }

end PreferObserver

namespace Catalogue

def ruleNames : List String := [PreferObserver.ruleName]

def allRules : List Rule := [PreferObserver.rule {}]

def ruleFromConfig (name : String) (c : RuleConfig) : Except ConfigError (Option Rule) :=
  if name = PreferObserver.ruleName then
    (PreferObserver.Settings.ofConfig c).map fun s => some (PreferObserver.rule s)
  else .ok none

/-- All rules with the settings of a configuration. Disabled rules are among them. -/
def rulesFromConfig (c : Config) : Except ConfigError (List Rule) := do
  let rules ← ruleNames.mapM fun name => ruleFromConfig name ((c.rule? name).getD {})
  pure (rules.filterMap id)

def unknownRules (c : Config) : List LogEntry :=
  ((c.rules.map Prod.fst).filter fun name => !ruleNames.contains name).map fun name =>
    ⟨.warn, .catalogue, s!"Unknown rule in config: {name}"⟩

end Catalogue

end ObserverLint
