import ObserverLint.Proofs.Exclusion
import ObserverLint.Proofs.Reasons

namespace ObserverLint

/-- The severity set for the rule, which is error if the configuration sets none. -/
def Config.observerSeverity (config : Config) : Severity :=
  (config.ruleSeverity? "prefer-observer").getD .error

namespace PreferObserver

theorem severity_of_mem_check {settings : Settings} {path : Path} {file : SourceFile}
    {v : Violation} (h : v ∈ check settings path file) : v.severity = settings.severity := by
  obtain ⟨finding, -, rfl⟩ := List.mem_map.mp h
  rfl

theorem messageId_of_mem_check {settings : Settings} {path : Path} {file : SourceFile}
    {v : Violation} (h : v ∈ check settings path file) : v.messageId ≠ none := by
  obtain ⟨finding, -, rfl⟩ := List.mem_map.mp h
  exact Option.some_ne_none _

end PreferObserver

namespace Analyzer

open PreferObserver Traversal

def LacksReasonOf (rules : List Rule) (w : Violation) : Prop :=
  ∃ rule ∈ rules, ∃ v, LacksReason rule v w

/-- Whatever is reported on a text comes from a finding of a rule. -/
theorem exists_settles_of_mem {a : Analyzer} {grammar : Grammar} {base path : Path} {text : String}
    {output : List Violation} (h : a.analyzeSource grammar base path text = .ok output)
    {w : Violation} (hw : w ∈ output) :
    ∃ rule ∈ a.rules, ∃ file, ∃ v ∈ findingsOf a.config (path.relativeTo base) file rule,
      Settles rule file.text v (some w) := by
  cases analyzeSource_eq_ok_iff.mp h with
  | skipped _ => cases hw
  | @read dialect blocks _ _ hblocks =>
    obtain ⟨block, hblock, hmem⟩ := List.mem_flatten.mp hw
    obtain ⟨rule, hrule, hof⟩ := exists_of_mem_right hblocks hblock
    cases hof with
    | disabled _ => cases hmem
    | enabled _ hsettled =>
      obtain ⟨_, houtcome, rfl⟩ := List.mem_filterMap.mp hmem
      obtain ⟨v, hv, hsettles⟩ := exists_of_mem_right hsettled houtcome
      exact ⟨rule, hrule, _, v, hv, hsettles⟩

section Rules

variable {config : Config} {rules : List Rule} {r : Rule}

theorem withSeverity_eq_self {config : Config} {v : Violation}
    (h : v.severity = config.observerSeverity) :
    withSeverity (config.ruleSeverity? "prefer-observer") v = v := by
  unfold Config.observerSeverity at h
  cases hset : config.ruleSeverity? "prefer-observer" with
  | none => rfl
  | some severity =>
    rw [hset, Option.getD_some] at h
    rw [withSeverity, ← h]

/-- What the configuration sets for the findings of a rule is what they have already. -/
theorem map_withSeverity_check (h : Catalogue.rulesFromConfig config = .ok rules) (hr : r ∈ rules)
    (path : Path) (file : SourceFile) :
    (r.check path file).map (withSeverity (config.ruleSeverity? r.name)) = r.check path file := by
  obtain ⟨settings, rfl, hseverity⟩ := Catalogue.exists_settings_of_mem h hr
  have hself : ∀ v ∈ (rule settings).check path file,
      withSeverity (config.ruleSeverity? (rule settings).name) v = id v := fun v hv =>
    withSeverity_eq_self ((severity_of_mem_check hv).trans hseverity)
  rw [List.map_congr_left hself, List.map_id]

/-- A finding keeps the severity that the configuration sets, and a warning takes its place only if
that is error. -/
theorem severity_of_settles (h : Catalogue.rulesFromConfig config = .ok rules) (hr : r ∈ rules)
    {path : Path} {file : SourceFile} {v w : Violation} (hv : v ∈ findingsOf config path file r)
    (hw : Settles r file.text v (some w)) :
    ¬ LacksReasonOf rules w ∧ w.severity = config.observerSeverity ∨
      LacksReasonOf rules w ∧ config.observerSeverity = .error := by
  obtain ⟨settings, rfl, hseverity⟩ := Catalogue.exists_settings_of_mem h hr
  cases hw with
  | kept _ =>
    refine Or.inl ⟨?_, (severity_of_mem_findingsOf h hr hv).trans hseverity⟩
    rintro ⟨_, _, _, hlacks⟩
    obtain ⟨raw, hraw, rfl⟩ := List.mem_map.mp hv
    exact messageId_of_mem_check hraw hlacks.messageId
  | replaced _ _ hrequired hlacks =>
    exact Or.inr ⟨⟨_, hr, v, hlacks⟩, hseverity.symm.trans (beq_iff_eq.mp hrequired)⟩

end Rules

/-- Rules that run under the configuration they were made from have their findings reported with the
severity it sets. Setting it again changes nothing. All else that is reported are warnings that a
reason is missing, and there are none unless that severity is error. -/
theorem configured_severity_reported {config : Config} {setup : Setup} {current : Path}
    {a : Analyzer} (hrules : Catalogue.rulesFromConfig config = .ok setup.rules)
    (hconfig : setup.config = some config) (hbuilt : setup.build current = .ok a) :
    (∀ r ∈ a.rules, r.name = "prefer-observer" ∧ r.defaultSeverity = config.observerSeverity ∧
      ∀ path file, (r.check path file).map (withSeverity (a.config.ruleSeverity? r.name)) =
        r.check path file) ∧
    ∀ grammar base path text output, a.analyzeSource grammar base path text = .ok output →
      ∀ w ∈ output, ¬ LacksReasonOf a.rules w ∧ w.severity = config.observerSeverity ∨
        LacksReasonOf a.rules w ∧ config.observerSeverity = .error := by
  have hmakes := Setup.build_eq_ok_iff.mp hbuilt
  have hsame : a.config = config := by rw [hmakes.config, hconfig, Option.getD_some]
  rw [← hmakes.rules] at hrules
  constructor
  · intro r hr
    obtain ⟨settings, rfl, hseverity⟩ := Catalogue.exists_settings_of_mem hrules hr
    refine ⟨rfl, hseverity, ?_⟩
    rw [hsame]
    exact map_withSeverity_check hrules hr
  · intro grammar base path text output houtput w hw
    obtain ⟨r, hr, file, v, hv, hsettles⟩ := exists_settles_of_mem houtput hw
    rw [hsame] at hv
    exact severity_of_settles hrules hr hv hsettles

/-- Two subscriptions, the second with a directive that does not say why. -/
def halfExcused : SourceFile where
  path := ⟨"/a.ts"⟩
  dialect := .typeScript
  text := "s.subscribe(a, b);\ns.subscribe(a, b); // rxlint: allow(all)\n"
  tree := .mk { kind := .program, stop := 60 } [
    Oracle.subscription 0, Oracle.subscription 19,
    .mk { kind := .comment, start := 38, stop := 59 } []]

def halfExcusedSetup : Setup where
  rules := [rule {}]
  excludes := ["x"]
  config := some {}

def halfExcusedAnalyzer : Analyzer where
  root := ⟨"/."⟩
  rules := [rule {}]
  excludes := ["x"].filterMap fun pattern => (Glob.parse pattern).toOption
  config := {}
  failOnParseError := false

def halfExcusedFinding (line offset : Nat) : Violation where
  code := "RX001"
  rule := "prefer-observer"
  severity := .error
  location := { file := ⟨"a.ts"⟩, line, column := 3, offset, length := 9 }
  message := "Passing separate handlers is forbidden; pass an observer instead."
  messageId := some "forbidden"
  docRef := some "docs/rules/prefer-observer.md"

def halfExcusedReport : List Violation :=
  [halfExcusedFinding 1 2, missingReason (rule {}) (halfExcusedFinding 2 21).location]

theorem reportOf_halfExcused :
    reportOf {} ⟨"a.ts"⟩ halfExcused (rule {}) = halfExcusedReport := by
  have hcheck : PreferObserver.check {} ⟨"a.ts"⟩ halfExcused =
      [halfExcusedFinding 1 2, halfExcusedFinding 2 21] := by decide +kernel
  have hkept : settle (rule {}) halfExcused.text (halfExcusedFinding 1 2) =
      some (halfExcusedFinding 1 2) := by decide
  have hreplaced : settle (rule {}) halfExcused.text (halfExcusedFinding 2 21) =
      some (missingReason (rule {}) (halfExcusedFinding 2 21).location) := by decide
  change ((PreferObserver.check {} _ _).map (withSeverity none)).filterMap
    (settle (rule {}) halfExcused.text) = _
  rw [hcheck]
  change List.filterMap _ [halfExcusedFinding 1 2, halfExcusedFinding 2 21] = _
  rw [List.filterMap_cons_some hkept, List.filterMap_cons_some hreplaced, List.filterMap_nil,
    halfExcusedReport]

theorem analyzeSource_halfExcused :
    halfExcusedAnalyzer.analyzeSource (fun _ _ => (halfExcused.tree, false)) ⟨"/"⟩ ⟨"/a.ts"⟩
        halfExcused.text = .ok halfExcusedReport := by
  have hdialect : Dialect.ofPath? ⟨"/a.ts"⟩ = some .typeScript := by decide
  have hrelative : (Path.mk "/a.ts").relativeTo ⟨"/"⟩ = ⟨"a.ts"⟩ := by decide
  simp only [analyzeSource, hdialect, hrelative]
  change Except.ok (reportOf {} ⟨"a.ts"⟩ halfExcused (rule {}) ++ []) = _
  rw [reportOf_halfExcused, List.append_nil]

/-- One is an error, as nothing else is set, and for the other a reason is missing. -/
theorem halfExcused_severities :
    Catalogue.rulesFromConfig {} = .ok halfExcusedSetup.rules ∧
      halfExcusedSetup.config = some {} ∧
      halfExcusedSetup.build ⟨"/"⟩ = .ok halfExcusedAnalyzer ∧
      halfExcusedAnalyzer.analyzeSource (fun _ _ => (halfExcused.tree, false)) ⟨"/"⟩ ⟨"/a.ts"⟩
        halfExcused.text = .ok halfExcusedReport ∧
      (halfExcusedFinding 1 2).severity = ({} : Config).observerSeverity ∧
      LacksReasonOf [rule {}] (missingReason (rule {}) (halfExcusedFinding 2 21).location) := by
  have hrules : Catalogue.rulesFromConfig {} = .ok halfExcusedSetup.rules :=
    Catalogue.rulesFromConfig_of_no_tables rfl
  have hglobs : halfExcusedSetup.patterns.mapM Glob.parse = .ok halfExcusedAnalyzer.excludes := by
    decide
  have hroot : (Path.mk "/").join halfExcusedSetup.rootPath = ⟨"/."⟩ :=
    (Path.join_after_slash (by decide) (by decide)).trans rfl
  have hbuilt : halfExcusedSetup.build ⟨"/"⟩ = .ok halfExcusedAnalyzer :=
    Setup.build_eq_ok_iff.mpr ⟨hroot.symm, rfl, mapM_eq_ok_iff.mp hglobs, rfl, rfl⟩
  obtain ⟨-, hreported⟩ := configured_severity_reported hrules rfl hbuilt
  have hall := hreported _ _ _ _ _ analyzeSource_halfExcused
  obtain ⟨hfirst, hsecond⟩ := List.forall_mem_cons.mp hall
  refine ⟨hrules, rfl, hbuilt, analyzeSource_halfExcused, ?_, ?_⟩
  · rcases hfirst with ⟨-, hseverity⟩ | ⟨⟨_, _, _, hlacks⟩, -⟩
    · exact hseverity
    · cases hlacks.messageId
  · rcases List.forall_mem_singleton.mp hsecond with ⟨-, hseverity⟩ | ⟨hlacks, -⟩
    · cases hseverity
    · exact hlacks

end Analyzer

end ObserverLint
