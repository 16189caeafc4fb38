import ObserverLint.Proofs.Exclusion

namespace ObserverLint

open Traversal

namespace Severity

/-- The text is a name of the severity. Letters count in either case. -/
inductive Named : String → Severity → Prop
  | label {text : String} {s : Severity} : text.map Char.toLower = s.label → Named text s
  | short {text : String} : text.map Char.toLower = "warn" → Named text .warning

theorem parse_eq_ok_iff {text : String} {s : Severity} : parse text = .ok s ↔ Named text s := by
  constructor
  · intro h
    unfold parse at h
    split at h <;> cases h
    all_goals first | exact .label ‹_› | exact .short ‹_›
  · intro h
    cases h with
    | label h =>
      rw [parse, h]
      cases s <;> rfl
    | short h =>
      rw [parse, h]
      rfl

end Severity

namespace Config

/-- The threshold of the configuration. It is error unless the configuration names another. -/
inductive FailsAt (c : Config) : Severity → Prop
  | unset : c.failOn = none → FailsAt c .error
  | named {text : String} {s : Severity} : c.failOn = some text → s.Named text → FailsAt c s

theorem threshold_eq_ok_iff {c : Config} {s : Severity} : c.threshold = .ok s ↔ c.FailsAt s := by
  cases hfail : c.failOn with
  | none =>
    have hthreshold : c.threshold = .ok .error := by rw [threshold, hfail]
    rw [hthreshold]
    constructor
    · intro h
      cases h
      exact .unset hfail
    · intro h
      cases h with
      | unset => rfl
      | named hsome => cases hfail.symm.trans hsome
  | some text =>
    have hthreshold : c.threshold = (Severity.parse text).mapError .threshold := by
      rw [threshold, hfail]
    rw [hthreshold, mapError_eq_ok_iff, Severity.parse_eq_ok_iff]
    constructor
    · intro h
      exact .named hfail h
    · intro h
      cases h with
      | unset hnone => cases hfail.symm.trans hnone
      | named hsome h =>
        cases hfail.symm.trans hsome
        exact h

end Config

namespace RuleConfig

variable {c : RuleConfig} {key : String}

theorem unknownOptions_eq_nil_iff {known : List String} :
    c.unknownOptions known = [] ↔ ∀ o ∈ c.options, o.1 ∈ known := by
  rw [unknownOptions, ← List.length_eq_zero_iff, List.length_mergeSort, List.length_eq_zero_iff,
    List.filter_eq_nil_iff, List.forall_mem_map]
  simp

theorem option?_isSome_iff : (∃ v, c.option? key = some v) ↔ ∃ o ∈ c.options, o.1 = key := by
  rw [← Option.isSome_iff_exists, option?, Option.isSome_map, List.find?_isSome]
  simp

theorem exists_expectBool_iff (rule : String) :
    (∃ b, c.expectBool rule key = .ok b) ↔
      ∀ v, c.option? key = some v → ∃ b, v = .boolean b := by
  unfold expectBool
  cases c.option? key with
  | none => simp
  | some v => cases v <;> simp

end RuleConfig

namespace PreferObserver

variable {c : RuleConfig}

def ValidOptions (c : RuleConfig) : Prop :=
  ∀ o ∈ c.options, o.1 ∈ optionKeys ∧ ∃ b, c.option? o.1 = some (.boolean b)

/-- The settings of the rule can be read exactly if its options are valid. -/
theorem exists_ofConfig_iff : (∃ s, Settings.ofConfig c = .ok s) ↔ ValidOptions c := by
  have htake (s : Settings) (key : String) : (∃ t, s.take c key = .ok t) ↔
      ∀ v, c.option? key = some v → ∃ b, v = .boolean b := by
    rw [Settings.take, exists_map_eq_ok_iff, RuleConfig.exists_expectBool_iff]
  have hread : (∃ s, Settings.ofConfig c = .ok s) ↔ c.unknownOptions optionKeys = [] ∧
      ∀ key ∈ optionKeys, ∀ v, c.option? key = some v → ∃ b, v = .boolean b := by
    unfold Settings.ofConfig
    cases hunknown : c.unknownOptions optionKeys with
    | cons key keys => simp
    | nil =>
      rw [← exists_foldlM_eq_ok_iff htake (y := {}), exists_bind_eq_ok_iff]
      simp [pure, Except.pure]
  rw [hread, RuleConfig.unknownOptions_eq_nil_iff]
  constructor
  · rintro ⟨hknown, hboolean⟩ o ho
    obtain ⟨v, hv⟩ := RuleConfig.option?_isSome_iff.mpr ⟨o, ho, rfl⟩
    obtain ⟨b, rfl⟩ := hboolean o.1 (hknown o ho) v hv
    exact ⟨hknown o ho, b, hv⟩
  · intro hvalid
    refine ⟨fun o ho => (hvalid o ho).1, ?_⟩
    intro key _ v hv
    obtain ⟨o, ho, rfl⟩ := RuleConfig.option?_isSome_iff.mp ⟨v, hv⟩
    obtain ⟨b, hb⟩ := (hvalid o ho).2
    exact ⟨b, Option.some.inj (hv.symm.trans hb)⟩

end PreferObserver

namespace Analyzer

def Compiles (pattern : String) : Prop := ∃ glob, Glob.parse pattern = .ok glob

theorem defaultExcludes_compile : ∀ pattern ∈ defaultExcludes, Compiles pattern := by
  have hparse : (defaultExcludes.all fun pattern => (Glob.parse pattern).isOk) = true := by decide
  intro pattern hpattern
  have hok := List.all_eq_true.mp hparse pattern hpattern
  cases hglob : Glob.parse pattern with
  | ok glob => exact ⟨glob, hglob⟩
  | error fault =>
    rw [hglob] at hok
    cases hok

theorem Setup.exists_build_iff {s : Setup} {current : Path} :
    (∃ a, s.build current = .ok a) ↔ ∀ pattern ∈ s.givenExcludes, Compiles pattern := by
  have hpatterns : (∃ a, s.build current = .ok a) ↔ ∀ pattern ∈ s.patterns, Compiles pattern := by
    have hread (pattern : String) : Compiles pattern ↔
        ∃ glob, (Glob.parse pattern).mapError AnalysisError.badPattern = .ok glob := by
      simp only [mapError_eq_ok_iff, Compiles]
    simp only [hread]
    rw [← exists_mapM_eq_ok_iff, Setup.build, exists_bind_eq_ok_iff]
    simp [pure, Except.pure]
  rw [hpatterns, Setup.patterns]
  cases s.givenExcludes with
  | nil => exact ⟨fun _ => List.forall_mem_nil _, fun _ => defaultExcludes_compile⟩
  | cons pattern patterns => rfl

end Analyzer

namespace CommandLine

open Analyzer PreferObserver

def RulesValid (config : Config) : Prop := ValidOptions ((config.rule? ruleName).getD {})

theorem exists_rulesFromConfig_iff {config : Config} :
    (∃ rules, Catalogue.rulesFromConfig config = .ok rules) ↔ RulesValid config := by
  have hrule : (∃ rule, Catalogue.ruleFromConfig ruleName ((config.rule? ruleName).getD {}) =
      .ok rule) ↔ RulesValid config := by
    rw [Catalogue.ruleFromConfig, if_pos rfl, exists_map_eq_ok_iff, exists_ofConfig_iff, RulesValid]
  rw [Catalogue.rulesFromConfig, exists_bind_eq_ok_iff]
  simp only [pure, Except.pure, Except.ok.injEq, exists_eq', and_true]
  rw [exists_mapM_eq_ok_iff, Catalogue.ruleNames, List.forall_mem_singleton, hrule]

theorem exists_configuredRules_iff {config : Config} {allowNext : Option Bool} :
    (∃ rules, configuredRules config allowNext = .ok rules) ↔ RulesValid config := by
  rw [configuredRules, exists_bind_eq_ok_iff, ← exists_rulesFromConfig_iff]
  cases allowNext with
  | none => simp [pure, Except.pure]
  | some allowNext =>
    refine exists_congr fun rules => and_iff_left_of_imp ?_
    intro hrules
    -- The settings are read once more, and they could be read before.
    rw [exists_bind_eq_ok_iff]
    obtain ⟨settings, hsettings⟩ :=
      exists_ofConfig_iff.mpr (exists_rulesFromConfig_iff.mp ⟨rules, hrules⟩)
    exact ⟨settings, hsettings, _, rfl⟩

theorem exists_selectRules_iff {config : Config} {filter : Option String}
    {allowNext : Option Bool} :
    (∃ rules, selectRules config filter allowNext = .ok rules) ↔ RulesValid config := by
  rw [selectRules, exists_map_eq_ok_iff, exists_configuredRules_iff]

structure Built (current : Path) (options : CheckOptions) (config : Config) (a : Analyzer) :
    Prop where
  root : a.root = current.join options.path
  rules : selectRules config options.rules options.allowNext = .ok a.rules
  excludes : List.Forall₂ (fun pattern glob => Glob.parse pattern = .ok glob)
    (setupOf options config a.rules).patterns a.excludes
  config : a.config = config
  tolerant : a.failOnParseError = false

section Building

variable {current : Path} {options : CheckOptions} {config : Config} {a : Analyzer}

theorem built_iff : Built current options config a ↔
    ∃ rules, selectRules config options.rules options.allowNext = .ok rules ∧
      analyzerFor current options config rules = .ok a := by
  simp only [analyzerFor, Setup.build_eq_ok_iff]
  constructor
  · intro h
    exact ⟨a.rules, h.rules, h.root, rfl, h.excludes, h.config, h.tolerant⟩
  · rintro ⟨rules, hrules, h⟩
    obtain rfl : a.rules = rules := h.rules
    exact ⟨h.root, hrules, h.excludes, h.config, h.failOnParseError⟩

/-- A check can be set up exactly if the options of the rules are valid and all patterns can be
read. -/
theorem exists_built_iff : (∃ a, Built current options config a) ↔
    RulesValid config ∧ ∀ pattern ∈ options.excludes ++ config.analyzer.exclude,
      Compiles pattern := by
  have hbuild (rules : List Rule) : (∃ a, analyzerFor current options config rules = .ok a) ↔
      ∀ pattern ∈ options.excludes ++ config.analyzer.exclude, Compiles pattern :=
    Setup.exists_build_iff
  simp only [built_iff]
  rw [← @exists_selectRules_iff config options.rules options.allowNext, exists_comm]
  simp only [exists_and_left, hbuild, exists_and_right]

end Building

theorem loadConfig_of_file {disk : Disk} {file : ConfigFile} {spot : Spot} {contents : Contents}
    {config : Config} (hspot : disk.find file.path = .ok spot)
    (hentry : spot.entry = .file contents) (hwhole : contents.whole = true)
    (hparse : Config.parse contents.text = .ok config) :
    loadConfig disk (some file) = .ok config := by
  rw [loadConfig, Config.load, Disk.readText_of_find hspot hentry hwhole]
  exact mapError_eq_ok_iff.mpr hparse

theorem prepare_eq_ok_iff {disk : Disk} {file : Option ConfigFile} {options : CheckOptions}
    {threshold : Severity} {a : Analyzer} :
    prepare disk file options = .ok (threshold, a) ↔
      ∃ config, loadConfig disk file = .ok config ∧ config.FailsAt threshold ∧
        Built disk.current options config a := by
  simp only [built_iff, ← Config.threshold_eq_ok_iff]
  constructor
  · intro h
    obtain ⟨config, hconfig, h⟩ := bind_eq_ok_iff.mp h
    obtain ⟨_, hthreshold, h⟩ := bind_eq_ok_iff.mp h
    obtain ⟨rules, hrules, h⟩ := bind_eq_ok_iff.mp h
    obtain ⟨_, hbuilt, h⟩ := bind_eq_ok_iff.mp h
    cases h
    exact ⟨config, hconfig, mapError_eq_ok_iff.mp hthreshold, rules,
      mapError_eq_ok_iff.mp hrules, mapError_eq_ok_iff.mp hbuilt⟩
  · rintro ⟨config, hconfig, hthreshold, rules, hrules, hbuilt⟩
    refine bind_eq_ok_iff.mpr ⟨config, hconfig, ?_⟩
    refine bind_eq_ok_iff.mpr ⟨threshold, mapError_eq_ok_iff.mpr hthreshold, ?_⟩
    refine bind_eq_ok_iff.mpr ⟨rules, mapError_eq_ok_iff.mpr hrules, ?_⟩
    exact bind_eq_ok_iff.mpr ⟨a, mapError_eq_ok_iff.mpr hbuilt, rfl⟩

theorem check_eq_ok_iff {disk : Disk} {grammar : Grammar} {file : Option ConfigFile}
    {options : CheckOptions} {c : Checked} :
    check disk grammar file options = .ok c ↔
      ∃ config, loadConfig disk file = .ok config ∧ config.FailsAt c.threshold ∧
        Built disk.current options config c.analyzer ∧
        c.analyzer.analyze disk grammar = .ok c.report := by
  constructor
  · intro h
    obtain ⟨⟨_, a⟩, hprepare, h⟩ := bind_eq_ok_iff.mp h
    obtain ⟨_, hreport, h⟩ := bind_eq_ok_iff.mp h
    cases h
    obtain ⟨config, hconfig, hthreshold, hbuilt⟩ := prepare_eq_ok_iff.mp hprepare
    exact ⟨config, hconfig, hthreshold, hbuilt, mapError_eq_ok_iff.mp hreport⟩
  · rintro ⟨config, hconfig, hthreshold, hbuilt, hreport⟩
    have hprepare := prepare_eq_ok_iff.mpr ⟨config, hconfig, hthreshold, hbuilt⟩
    refine bind_eq_ok_iff.mpr ⟨(c.threshold, c.analyzer), hprepare, ?_⟩
    exact bind_eq_ok_iff.mpr ⟨c.report, mapError_eq_ok_iff.mpr hreport, rfl⟩

end CommandLine

end ObserverLint
