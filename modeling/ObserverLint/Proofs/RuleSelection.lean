import ObserverLint.Proofs.Comments
import ObserverLint.Proofs.RuleOptions

namespace ObserverLint

namespace Text

/-- Every text is a list of parts with the separator between them and in none of them. -/
theorem exists_intercalate (separator : Char) (cs : List Char) :
    ∃ parts, parts ≠ [] ∧ (∀ part ∈ parts, separator ∉ part) ∧
      cs = [separator].intercalate parts := by
  induction cs with
  | nil => exact ⟨[[]], by simp, by simp, rfl⟩
  | cons c cs ih =>
    obtain ⟨parts, hne, hparts, rfl⟩ := ih
    by_cases hc : separator = c
    · refine ⟨[] :: parts, by simp, List.forall_mem_cons.mpr ⟨by simp, hparts⟩, ?_⟩
      rw [List.intercalate_cons_of_ne_nil hne, hc]
      rfl
    · obtain ⟨part, parts, rfl⟩ := List.exists_cons_of_ne_nil hne
      obtain ⟨hpart, hrest⟩ := List.forall_mem_cons.mp hparts
      have hfirst : separator ∉ c :: part := List.not_mem_cons_of_ne_of_not_mem hc hpart
      refine ⟨(c :: part) :: parts, by simp, List.forall_mem_cons.mpr ⟨hfirst, hrest⟩, ?_⟩
      cases parts with
      | nil => simp
      | cons next parts => simp [List.intercalate_cons_of_ne_nil]

theorem trim_eq_iff {cs name : List Char} (hbegins : ∀ c, name.head? = some c → isBlank c = false)
    (hends : ∀ c, name.getLast? = some c → isBlank c = false) :
    trim cs = name ↔
      ∃ lead trail, AllBlank lead ∧ AllBlank trail ∧ cs = lead ++ name ++ trail := by
  constructor
  · rintro rfl
    exact exists_trim cs
  · rintro ⟨lead, trail, hlead, htrail, rfl⟩
    rw [trim_append_blank htrail, trim_blank_append hlead, trim_eq_self hbegins hends]

end Text

namespace CommandLine

open PreferObserver RuleConfig Text Traversal

/-- The text is a list with commas between its parts, and one of them is the name with blanks around
it. -/
def Mentions (text name : String) : Prop :=
  ∃ parts, text.toList = [','].intercalate parts ∧ (∀ part ∈ parts, ',' ∉ part) ∧
    ∃ part ∈ parts, ∃ lead trail, AllBlank lead ∧ AllBlank trail ∧
      part = lead ++ name.toList ++ trail

theorem mem_wantedNames_iff {text name : String} (hne : name ≠ "")
    (hbegins : ∀ c, name.toList.head? = some c → isBlank c = false)
    (hends : ∀ c, name.toList.getLast? = some c → isBlank c = false) :
    name ∈ wantedNames text ↔ Mentions text name := by
  have hlists : name ∈ wantedNames text ↔ name.toList ∈ (split ',' text.toList).map trim :=
    Directive.mem_ruleNames.trans (and_iff_right hne)
  rw [hlists, List.mem_map]
  constructor
  · rintro ⟨part, hpart, hname⟩
    obtain ⟨parts, hparts, hcomma, htext⟩ := exists_intercalate ',' text.toList
    rw [htext, split_intercalate hparts hcomma] at hpart
    exact ⟨parts, htext, hcomma, part, hpart, (trim_eq_iff hbegins hends).mp hname⟩
  · rintro ⟨parts, htext, hcomma, part, hpart, hname⟩
    rw [htext, split_intercalate (List.ne_nil_of_mem hpart) hcomma]
    exact ⟨part, hpart, (trim_eq_iff hbegins hends).mpr hname⟩

/-- The rule is kept exactly if the list mentions it. -/
theorem isWanted_rule_iff {text : String} (s : Settings) :
    isWanted (wantedNames text) (rule s) = true ↔
      Mentions text (rule s).name ∨ Mentions text (rule s).code := by
  have hname : ruleName ∈ wantedNames text ↔ Mentions text ruleName :=
    mem_wantedNames_iff (by decide) (by rintro c ⟨⟩; rfl) (by rintro c ⟨⟩; rfl)
  have hcode : ruleCode ∈ wantedNames text ↔ Mentions text ruleCode :=
    mem_wantedNames_iff (by decide) (by rintro c ⟨⟩; rfl) (by rintro c ⟨⟩; rfl)
  rw [isWanted, Bool.or_eq_true, List.contains_iff_mem, List.contains_iff_mem]
  exact or_congr hname hcode

/-- The table of the rule, without settings if the configuration has none. -/
def tableOf (config : Config) : RuleConfig := (config.rule? "prefer-observer").getD {}

theorem kept_sublist (filter : Option String) (rules : List Rule) :
    (kept filter rules).Sublist rules := by
  cases filter with
  | none => exact List.Sublist.refl _
  | some text => exact List.filter_sublist

theorem rulesFromConfig_eq (config : Config) :
    Catalogue.rulesFromConfig config =
      (Settings.ofConfig (tableOf config)).map fun s => [rule s] := by
  have hrule : Catalogue.ruleFromConfig ruleName ((config.rule? ruleName).getD {}) =
      (Settings.ofConfig (tableOf config)).map fun s => some (rule s) := by
    rw [Catalogue.ruleFromConfig, if_pos rfl, tableOf]
    rfl
  rw [Catalogue.rulesFromConfig, Catalogue.ruleNames, List.mapM_cons, hrule]
  cases Settings.ofConfig (tableOf config) <;> rfl

theorem configuredRules_eq (config : Config) (allowNext : Option Bool) :
    configuredRules config allowNext = (Settings.ofConfig (tableOf config)).map fun s =>
      [rule { s with allowNext := allowNext.getD s.allowNext }] := by
  have htable : (config.rule? ruleName).getD {} = tableOf config := rfl
  rw [configuredRules, rulesFromConfig_eq, htable]
  cases Settings.ofConfig (tableOf config) <;> cases allowNext <;> rfl

theorem selectRules_eq (config : Config) (filter : Option String) (allowNext : Option Bool) :
    selectRules config filter allowNext = (Settings.ofConfig (tableOf config)).map fun s =>
      kept filter [rule { s with allowNext := allowNext.getD s.allowNext }] := by
  rw [selectRules, configuredRules_eq]
  cases Settings.ofConfig (tableOf config) <;> cases filter <;> rfl

/-- The edited configuration says whether a single handler is in order, in one place and under one
name, and it says nothing else that the configuration does not. -/
structure SetsAllowNext (allowNext : Bool) (config edited : Config) : Prop where
  failOn : edited.failOn = config.failOn
  analyzer : edited.analyzer = config.analyzer
  others : ∀ name, name ≠ "prefer-observer" → edited.rule? name = config.rule? name
  present : edited.rule? "prefer-observer" = some (tableOf edited)
  enabled : (tableOf edited).enabled = (tableOf config).enabled
  severity : (tableOf edited).severity = (tableOf config).severity
  first : (tableOf edited).option? "allow_next" = some (.boolean allowNext)
  second : (tableOf edited).option? "allowNext" = none
  unknown : ∀ key, key ≠ "allow_next" → key ≠ "allowNext" →
    (tableOf edited).option? key = (tableOf config).option? key

/-- The configuration with the option in place of what its table says under either name. -/
def settingAllowNext (allowNext : Bool) (config : Config) : Config :=
  let table := tableOf config
  let others := table.options.filter fun o => !optionKeys.contains o.1
  let edited := { table with options := ("allow_next", .boolean allowNext) :: others }
  { config with
    rules := ("prefer-observer", edited) ::
      config.rules.filter fun r => r.1 != "prefer-observer" }

theorem find?_filter_of_imp {α : Type} {p q : α → Bool} (h : ∀ a, q a = true → p a = true)
    (xs : List α) : (xs.filter p).find? q = xs.find? q := by
  rw [List.find?_filter]
  congr 1
  funext a
  cases hq : q a with
  | false => simp
  | true => simp [h a hq]

theorem setsAllowNext_settingAllowNext (allowNext : Bool) (config : Config) :
    SetsAllowNext allowNext config (settingAllowNext allowNext config) := by
  refine ⟨rfl, rfl, ?_, rfl, rfl, rfl, rfl, ?_, ?_⟩
  · intro name hname
    rw [Config.rule?, Config.rule?, settingAllowNext,
      List.find?_cons_of_neg (by simpa using hname.symm), find?_filter_of_imp]
    rintro r hr
    simpa [beq_iff_eq.mp hr] using hname
  · rw [option?_eq_none_iff]
    intro v hv
    simp [tableOf, settingAllowNext, Config.rule?, optionKeys] at hv
  · intro key hfirst hsecond
    rw [option?, option?]
    change Option.map Prod.snd (List.find? _ (_ :: List.filter _ (tableOf config).options)) = _
    rw [List.find?_cons_of_neg (by simpa using hfirst.symm), find?_filter_of_imp]
    intro o ho
    simp [optionKeys, beq_iff_eq.mp ho, hfirst, hsecond]

theorem hasUnknown_iff_option? {c : RuleConfig} {key : String} :
    HasUnknown c key ↔ c.option? key ≠ none ∧ key ≠ "allow_next" ∧ key ≠ "allowNext" := by
  have hoption : c.option? key ≠ none ↔ ∃ v, (key, v) ∈ c.options := by
    rw [ne_eq, option?_eq_none_iff, not_forall_not]
  rw [HasUnknown, hoption]

/-- Read from the edited table, the settings are those of the table with the option changed. -/
theorem SetsAllowNext.ofConfig_eq {allowNext : Bool} {config edited : Config}
    (h : SetsAllowNext allowNext config edited) {s : Settings}
    (hs : Settings.ofConfig (tableOf config) = .ok s) :
    Settings.ofConfig (tableOf edited) = .ok { s with allowNext } := by
  obtain ⟨hnone, first, second, -, -, rfl⟩ := ofConfig_eq_ok_iff.mp hs
  refine ofConfig_eq_ok_iff.mpr ⟨?_, some allowNext, none, ?_, ?_, ?_⟩
  · intro key hunknown
    obtain ⟨hoption, hfirst, hsecond⟩ := hasUnknown_iff_option?.mp hunknown
    rw [h.unknown key hfirst hsecond] at hoption
    exact hnone key (hasUnknown_iff_option?.mpr ⟨hoption, hfirst, hsecond⟩)
  · rw [expectBool, h.first]
  · rw [expectBool, h.second]
  · rw [h.severity]
    rfl

/-- To say on the command line whether a single handler is in order fails where the configuration
fails, and comes to the same as to say it in the configuration. A list of rules keeps those that it
mentions by name or code, in their order. -/
theorem allowNext_flag_edits_config (config : Config) (filter : Option String) (allowNext : Bool) :
    (∃ edited, SetsAllowNext allowNext config edited) ∧
    (∀ e, selectRules config filter (some allowNext) = .error e ↔
      selectRules config none none = .error e) ∧
    (∀ edited rules, SetsAllowNext allowNext config edited →
      selectRules config filter (some allowNext) = .ok rules →
      selectRules edited filter none = .ok rules ∧
        ∀ r ∈ rules, ∃ s : Settings, r = rule s ∧ s.allowNext = allowNext) ∧
    ∀ flag text rules, selectRules config none flag = .ok rules →
      ∃ chosen, selectRules config (some text) flag = .ok chosen ∧ chosen.Sublist rules ∧
        ∀ r ∈ rules, r ∈ chosen ↔ Mentions text r.name ∨ Mentions text r.code := by
  refine ⟨⟨_, setsAllowNext_settingAllowNext allowNext config⟩, ?_, ?_, ?_⟩
  · intro e
    rw [selectRules_eq, selectRules_eq, map_eq_error_iff, map_eq_error_iff]
  · intro edited rules hedited hrules
    rw [selectRules_eq] at hrules ⊢
    obtain ⟨s, hs, rfl⟩ := map_eq_ok_iff.mp hrules
    refine ⟨map_eq_ok_iff.mpr ⟨_, hedited.ofConfig_eq hs, rfl⟩, ?_⟩
    intro r hr
    exact ⟨_, List.mem_singleton.mp ((kept_sublist filter _).subset hr), rfl⟩
  · intro flag text rules hrules
    rw [selectRules_eq] at hrules
    obtain ⟨s, hs, rfl⟩ := map_eq_ok_iff.mp hrules
    refine ⟨_, (selectRules_eq config (some text) flag).trans (by rw [hs]; rfl),
      kept_sublist (some text) _, ?_⟩
    intro r hr
    obtain rfl := List.mem_singleton.mp hr
    rw [← isWanted_rule_iff]
    exact List.mem_filter.trans (and_iff_right hr)

def lenient : Config where
  rules := [("prefer-observer",
    { severity := some .warning, options := [("allowNext", .boolean true)] })]

theorem lenient_made_strict :
    SetsAllowNext false lenient (settingAllowNext false lenient) ∧
      selectRules lenient (some "other, RX001\t,") (some false) =
        .ok [rule { allowNext := false, severity := .warning }] ∧
      selectRules (settingAllowNext false lenient) (some "other, RX001\t,") none =
        .ok [rule { allowNext := false, severity := .warning }] := by
  have hedited := setsAllowNext_settingAllowNext false lenient
  have hsettings : Settings.ofConfig (tableOf lenient) =
      .ok { allowNext := true, severity := .warning } := by decide +kernel
  have hwanted : isWanted (wantedNames "other, RX001\t,")
      (rule { allowNext := false, severity := .warning }) = true := by decide
  have hrules : selectRules lenient (some "other, RX001\t,") (some false) =
      .ok [rule { allowNext := false, severity := .warning }] := by
    rw [selectRules_eq, hsettings]
    exact congrArg Except.ok (List.filter_cons_of_pos hwanted)
  obtain ⟨-, -, hsame, -⟩ := allowNext_flag_edits_config lenient (some "other, RX001\t,") false
  exact ⟨hedited, hrules, (hsame _ _ hedited hrules).1⟩

end CommandLine

end ObserverLint
