import ObserverLint.CommandLine.Check
import ObserverLint.Proofs.Descent

namespace ObserverLint

open Traversal

namespace Analyzer

structure Selected (a : Analyzer) (disk : Disk) (p : Path) : Prop where
  isFile : disk.isFile p = true
  isSource : ∃ dialect, Dialect.ofPath? p = some dialect
  unmatched : ∀ glob ∈ a.excludes, glob.isMatch (p.relativeTo (a.baseDir disk)).text = false

theorem selected_iff {a : Analyzer} {disk : Disk} {p : Path} :
    a.Selected disk p ↔ (isSource disk p && !a.isExcluded (a.baseDir disk) p) = true := by
  simp only [isSource, isExcluded, Bool.and_eq_true, Bool.not_eq_true', List.any_eq_false,
    Option.isSome_iff_exists, Bool.not_eq_true]
  exact ⟨fun h => ⟨⟨h.isFile, h.isSource⟩, h.unmatched⟩, fun h => ⟨h.1.1, h.1.2, h.2⟩⟩

theorem mem_selected {a : Analyzer} {disk : Disk} {found : List Path} {p : Path} :
    p ∈ a.selected disk found ↔ p ∈ found ∧ a.Selected disk p := by
  rw [selected, List.mem_mergeSort, List.mem_filter, selected_iff]

theorem selected_of_one {a : Analyzer} {disk : Disk} {p : Path} (h : a.Selected disk p) :
    a.selected disk [p] = [p] := by
  simp [selected, selected_iff.mp h]

def Hits (pattern : String) (path : Path) : Prop :=
  ∃ glob, Glob.parse pattern = .ok glob ∧ glob.isMatch path.text = true

namespace Setup

variable {s : Setup}

theorem patterns_of_given (h : s.excludes ++ s.configured ≠ []) :
    s.patterns = s.excludes ++ s.configured := by
  rw [patterns]
  split
  · contradiction
  · rfl

theorem patterns_of_none (hgiven : s.excludes = []) (hconfigured : s.configured = []) :
    s.patterns = defaultExcludes := by
  have hnone : s.givenExcludes = [] := by
    rw [givenExcludes, hgiven]
    exact hconfigured
  rw [patterns, hnone]

/-- Of two setups with the same configuration, let none of the patterns of the one with more of them
hit. A pattern of the other one hits exactly if it is one of those that hold because none are given.
What it means for a pattern to hit plays no part. -/
theorem exists_hit_iff {fewer more : Setup} (hsub : fewer.excludes ⊆ more.excludes)
    (hsame : fewer.configured = more.configured) (hits : String → Prop)
    (hnone : ∀ pattern ∈ more.patterns, ¬ hits pattern) :
    (∃ pattern ∈ fewer.patterns, hits pattern) ↔
      fewer.excludes = [] ∧ fewer.configured = [] ∧ more.excludes ≠ [] ∧
        ∃ pattern ∈ defaultExcludes, hits pattern := by
  by_cases hgiven : fewer.excludes = [] ∧ fewer.configured = []
  · obtain ⟨hempty, hconfigured⟩ := hgiven
    rw [patterns_of_none hempty hconfigured]
    constructor
    · rintro ⟨pattern, hmem, hhits⟩
      refine ⟨hempty, hconfigured, ?_, pattern, hmem, hhits⟩
      intro hmore
      rw [patterns_of_none hmore (hsame ▸ hconfigured)] at hnone
      exact hnone pattern hmem hhits
    · rintro ⟨-, -, -, hdefault⟩
      exact hdefault
  · -- Where a pattern is given, the patterns that hold are all among the more ones.
    have hfewer : fewer.excludes ++ fewer.configured ≠ [] := by simpa using hgiven
    have hsubset : fewer.excludes ++ fewer.configured ⊆ more.excludes ++ more.configured := by
      rw [hsame]
      exact List.append_subset.mpr ⟨List.subset_append_of_subset_left _ hsub,
        List.subset_append_right _ _⟩
    have hmore : more.excludes ++ more.configured ≠ [] := by
      intro hnil
      rw [hnil] at hsubset
      exact hfewer (List.subset_nil.mp hsubset)
    rw [patterns_of_given hmore] at hnone
    rw [patterns_of_given hfewer]
    constructor
    · rintro ⟨pattern, hmem, hhits⟩
      exact absurd hhits (hnone pattern (hsubset hmem))
    · rintro ⟨hempty, hconfigured, -⟩
      exact absurd ⟨hempty, hconfigured⟩ hgiven

structure Makes (s : Setup) (current : Path) (a : Analyzer) : Prop where
  root : a.root = current.join s.rootPath
  rules : a.rules = s.rules
  excludes : List.Forall₂ (fun pattern glob => Glob.parse pattern = .ok glob) s.patterns a.excludes
  config : a.config = s.config.getD {}
  failOnParseError : a.failOnParseError = s.failOnParseError

theorem build_eq_ok_iff {current : Path} {a : Analyzer} :
    s.build current = .ok a ↔ s.Makes current a := by
  constructor
  · intro h
    obtain ⟨globs, hglobs, ha⟩ := bind_eq_ok_iff.mp h
    obtain rfl := Except.ok.inj ha
    refine ⟨rfl, rfl, (mapM_eq_ok_iff.mp hglobs).imp ?_, rfl, rfl⟩
    intro pattern glob hparse
    exact mapError_eq_ok_iff.mp hparse
  · intro h
    have hglobs : s.patterns.mapM (fun p => (Glob.parse p).mapError AnalysisError.badPattern) =
        .ok a.excludes :=
      mapM_eq_ok_iff.mpr (h.excludes.imp fun _ _ hparse => mapError_eq_ok_iff.mpr hparse)
    refine bind_eq_ok_iff.mpr ⟨a.excludes, hglobs, ?_⟩
    rcases a with ⟨root, rules, excludes, config, failOnParseError⟩
    obtain ⟨rfl, rfl, -, rfl, rfl⟩ := h
    rfl

/-- The patterns of the analyzer match what the patterns of its setup hit. -/
theorem unmatched_iff {current : Path} {a : Analyzer} (h : s.build current = .ok a) {path : Path} :
    (∀ glob ∈ a.excludes, glob.isMatch path.text = false) ↔
      ∀ pattern ∈ s.patterns, ¬ Hits pattern path := by
  have hparsed := (build_eq_ok_iff.mp h).excludes
  generalize s.patterns = patterns, a.excludes = globs at hparsed ⊢
  induction hparsed with
  | nil => simp
  | @cons pattern glob patterns globs hparse _ ih =>
    rw [List.forall_mem_cons, List.forall_mem_cons]
    refine and_congr ?_ ih
    simp [Hits, hparse]

end Setup

end Analyzer

/-- The default options are valid. -/
theorem Catalogue.rulesFromConfig_of_no_tables {config : Config} (h : config.rules = []) :
    rulesFromConfig config = .ok Catalogue.allRules := by
  have hnone (name : String) : config.rule? name = none := by simp [Config.rule?, h]
  have hsettings : PreferObserver.Settings.ofConfig {} = .ok {} := by
    have hknown : RuleConfig.unknownOptions {} PreferObserver.optionKeys = [] :=
      List.mergeSort_nil
    rw [PreferObserver.Settings.ofConfig, hknown]
    rfl
  have hrule : Catalogue.ruleFromConfig PreferObserver.ruleName {} =
      .ok (some (PreferObserver.rule {})) := by
    rw [Catalogue.ruleFromConfig, if_pos rfl, hsettings]
    rfl
  simp only [Catalogue.rulesFromConfig, Catalogue.ruleNames, hnone, Option.getD_none,
    List.mapM_cons, hrule]
  rfl

namespace CommandLine

open Analyzer

theorem prepare_eq_ok {disk : Disk} {file : Option ConfigFile} {options : CheckOptions}
    {threshold : Severity} {a : Analyzer} (h : prepare disk file options = .ok (threshold, a)) :
    ∃ config rules, loadConfig disk file = .ok config ∧
      (setupOf options config rules).build disk.current = .ok a := by
  obtain ⟨config, hconfig, h⟩ := bind_eq_ok_iff.mp h
  obtain ⟨_, -, h⟩ := bind_eq_ok_iff.mp h
  obtain ⟨rules, -, h⟩ := bind_eq_ok_iff.mp h
  obtain ⟨_, hbuilt, h⟩ := bind_eq_ok_iff.mp h
  cases h
  exact ⟨config, rules, hconfig, mapError_eq_ok_iff.mp hbuilt⟩

/-- A file that the setup with more patterns selects is missing under the other one only for the
patterns that hold because none are given. -/
theorem not_selected_iff_of_more {disk : Disk} {current : Path} {fewer more : Setup} {a b : Analyzer}
    (ha : fewer.build current = .ok a) (hb : more.build current = .ok b)
    (hsub : fewer.excludes ⊆ more.excludes) (hsame : fewer.configured = more.configured)
    (hbase : a.baseDir disk = b.baseDir disk) {p : Path} (hp : b.Selected disk p) :
    ¬ a.Selected disk p ↔ fewer.excludes = [] ∧ fewer.configured = [] ∧ more.excludes ≠ [] ∧
      ∃ pattern ∈ defaultExcludes, Hits pattern (p.relativeTo (b.baseDir disk)) := by
  have hspared := (Setup.unmatched_iff hb).mp hp.unmatched
  rw [← Setup.exists_hit_iff hsub hsame _ hspared]
  constructor
  · intro hnot
    by_contra hmissed
    refine hnot ⟨hp.isFile, hp.isSource, (Setup.unmatched_iff ha).mpr ?_⟩
    intro pattern hmem hhits
    rw [hbase] at hhits
    exact hmissed ⟨pattern, hmem, hhits⟩
  · rintro ⟨pattern, hmem, hhits⟩ hselected
    rw [← hbase] at hhits
    exact (Setup.unmatched_iff ha).mp hselected.unmatched pattern hmem hhits

/-- Of two runs of which one is given more patterns to exclude, that one analyses a file that the
other leaves out only where the other is given no pattern at all, neither by the user nor in the
configuration, and leaves the file out for that reason. So it would be with any other way of
matching. -/
theorem more_excludes_analyse_no_more {disk : Disk} {file : Option ConfigFile}
    {options : CheckOptions} {P Q : List String} {config : Config} {s t : Severity}
    {a b : Analyzer} (hsub : P ⊆ Q) (hconfig : loadConfig disk file = .ok config)
    (ha : prepare disk file { options with excludes := P } = .ok (s, a))
    (hb : prepare disk file { options with excludes := Q } = .ok (t, b)) :
    a.discover disk = b.discover disk ∧
    (∀ found, ∀ p ∈ b.selected disk found, p ∉ a.selected disk found ↔
      P = [] ∧ config.analyzer.exclude = [] ∧ Q ≠ [] ∧
        ∃ pattern ∈ defaultExcludes, Hits pattern (p.relativeTo (b.baseDir disk))) ∧
    ∀ hits : String → Prop,
      (∀ pattern ∈ Setup.patterns { excludes := Q, config := some config }, ¬ hits pattern) →
      ((∃ pattern ∈ Setup.patterns { excludes := P, config := some config }, hits pattern) ↔
        P = [] ∧ config.analyzer.exclude = [] ∧ Q ≠ [] ∧
          ∃ pattern ∈ defaultExcludes, hits pattern) := by
  obtain ⟨fewerConfig, fewerRules, hfewer, ha⟩ := prepare_eq_ok ha
  obtain ⟨moreConfig, moreRules, hmore, hb⟩ := prepare_eq_ok hb
  obtain rfl : fewerConfig = config := Except.ok.inj (hfewer.symm.trans hconfig)
  obtain rfl : moreConfig = fewerConfig := Except.ok.inj (hmore.symm.trans hfewer)
  have hmakes := Setup.build_eq_ok_iff.mp ha
  have hmakes' := Setup.build_eq_ok_iff.mp hb
  have hroot : a.root = b.root := hmakes.root.trans hmakes'.root.symm
  have hsettings : a.config = b.config := hmakes.config.trans hmakes'.config.symm
  have hbase : a.baseDir disk = b.baseDir disk := by rw [baseDir, baseDir, hroot]
  refine ⟨by rw [discover, discover, hroot, hsettings], ?_, ?_⟩
  · intro found p hp
    obtain ⟨hfound, hselected⟩ := mem_selected.mp hp
    have hiff := not_selected_iff_of_more ha hb hsub rfl hbase hselected
    rw [mem_selected, not_and]
    exact ⟨fun h => hiff.mp (h hfound), fun h _ => hiff.mpr h⟩
  · intro hits hnone
    exact @Setup.exists_hit_iff { excludes := P, config := some _ }
      { excludes := Q, config := some _ } hsub rfl hits hnone

theorem selectRules_of_no_tables {config : Config} (h : config.rules = []) :
    selectRules config none none = .ok Catalogue.allRules := by
  rw [selectRules, configuredRules, Catalogue.rulesFromConfig_of_no_tables h]
  rfl

/-- A directory with a single file, one that is left out if no pattern is given. -/
def bundled : Disk where
  top := .directory [("dist", .directory [("d.js", .file { text := "" })])]
  current := ⟨"/"⟩

def bundle : Path := ⟨"/./dist/d.js"⟩

def bundledWith (patterns : List String) : Analyzer where
  root := ⟨"/."⟩
  rules := Catalogue.allRules
  excludes := patterns.filterMap fun pattern => (Glob.parse pattern).toOption
  config := {}
  failOnParseError := false

theorem prepare_bundled {excludes patterns : List String}
    (hpatterns : (setupOf { excludes } {} Catalogue.allRules).patterns = patterns)
    (hglobs : patterns.mapM Glob.parse = .ok (bundledWith patterns).excludes) :
    prepare bundled none { excludes } = .ok (.error, bundledWith patterns) := by
  subst hpatterns
  have hroot : bundled.current.join ⟨"."⟩ = ⟨"/."⟩ :=
    (Path.join_after_slash (by decide) (by decide)).trans rfl
  have hbuilt : analyzerFor bundled.current { excludes } {} Catalogue.allRules =
      .ok (bundledWith _) :=
    Setup.build_eq_ok_iff.mpr ⟨hroot.symm, rfl, mapM_eq_ok_iff.mp hglobs, rfl, rfl⟩
  have hrules : selectRules {} none none = .ok Catalogue.allRules := selectRules_of_no_tables rfl
  refine bind_eq_ok_iff.mpr ⟨{}, rfl, bind_eq_ok_iff.mpr ⟨.error, rfl, ?_⟩⟩
  refine bind_eq_ok_iff.mpr ⟨_, mapError_eq_ok_iff.mpr hrules, ?_⟩
  exact bind_eq_ok_iff.mpr ⟨_, mapError_eq_ok_iff.mpr hbuilt, rfl⟩

theorem mem_selected_bundled {patterns : List String} :
    bundle ∈ (bundledWith patterns).selected bundled [bundle] ↔
      ∀ glob ∈ (bundledWith patterns).excludes, glob.isMatch "dist/d.js" = false := by
  have hroot : bundled.find ⟨"/."⟩ = .ok ⟨bundled.top, [], []⟩ :=
    (Disk.find_eq_ok_iff (by decide)).mpr ⟨⟨by decide, by decide⟩, rfl⟩
  have hfind : bundled.find bundle = .ok _ :=
    (Disk.find_eq_ok_iff (by decide)).mpr ⟨⟨by decide, by decide⟩, rfl⟩
  have hfile : bundled.isFile bundle = true := Disk.isFile_of_find hfind
  have hbase : (bundledWith patterns).baseDir bundled = ⟨"/."⟩ := by
    rw [baseDir, bundledWith, Disk.isFile_of_find hroot]
    rfl
  have hrelative : bundle.relativeTo ⟨"/."⟩ = ⟨"dist/d.js"⟩ := by decide
  rw [mem_selected]
  constructor
  · rintro ⟨-, hselected⟩
    have hunmatched := hselected.unmatched
    rwa [hbase, hrelative] at hunmatched
  · intro hunmatched
    refine ⟨List.mem_singleton_self _, hfile, ⟨.javaScript, by decide⟩, ?_⟩
    rwa [hbase, hrelative]

theorem bundle_analysed_with_fewer_excludes :
    ∃ s a t b, prepare bundled none { excludes := ["gen/**"] } = .ok (s, a) ∧
      prepare bundled none { excludes := ["src/**", "gen/**"] } = .ok (t, b) ∧
      bundle ∈ b.selected bundled [bundle] ∧ bundle ∈ a.selected bundled [bundle] := by
  have ha := @prepare_bundled ["gen/**"] _ rfl (by decide)
  have hb := @prepare_bundled ["src/**", "gen/**"] _ rfl (by decide)
  have hmem := (@mem_selected_bundled ["src/**", "gen/**"]).mpr (by decide)
  refine ⟨_, _, _, _, ha, hb, hmem, ?_⟩
  have hiff := (@more_excludes_analyse_no_more bundled none {} _ _ _ _ _ _ _
    (List.subset_cons_self _ _) rfl ha hb).2.1 [bundle] bundle hmem
  by_contra hnot
  cases (hiff.mp hnot).1

/-- A first pattern, which does not even match the file, brings it into the run. -/
theorem bundle_analysed_once_excludes_given :
    ∃ s a t b, prepare bundled none { excludes := [] } = .ok (s, a) ∧
      prepare bundled none { excludes := ["gen/**"] } = .ok (t, b) ∧
      [] ⊆ ["gen/**"] ∧ bundle ∈ b.selected bundled [bundle] ∧
      bundle ∉ a.selected bundled [bundle] := by
  have ha := @prepare_bundled [] _ rfl (by decide)
  have hb := @prepare_bundled ["gen/**"] _ rfl (by decide)
  refine ⟨_, _, _, _, ha, hb, List.nil_subset _, mem_selected_bundled.mpr (by decide), ?_⟩
  rw [mem_selected_bundled]
  decide

end CommandLine

end ObserverLint
