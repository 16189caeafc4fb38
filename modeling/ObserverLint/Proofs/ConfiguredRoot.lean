import ObserverLint.Proofs.ExitCodes
import ObserverLint.Proofs.Relocation

namespace ObserverLint

open ObserverLint.Path Traversal

theorem Path.isAbsolute_iff {p : Path} :
    p.isAbsolute = true ↔ ∃ rest, p.text.toList = '/' :: rest := by
  constructor
  · intro h
    obtain ⟨body, -, hsegments, -⟩ := exists_of_isAbsolute h
    obtain ⟨c, rest, htext⟩ := List.exists_cons_of_ne_nil (text_ne_nil_of_isAbsolute h)
    by_cases hc : c = '/'
    · exact ⟨rest, hc ▸ htext⟩
    · obtain ⟨s, ss, hss⟩ := List.exists_cons_of_ne_nil (segments_ne_nil rest)
      rw [htext, segments_cons_of_ne hc hss] at hsegments
      cases hsegments
  · rintro ⟨rest, htext⟩
    obtain ⟨s, ss, hss⟩ := List.exists_cons_of_ne_nil (segments_ne_nil rest)
    have hsegments : segments p.text.toList = [] :: s :: ss := by
      rw [htext, segments, if_pos rfl, hss]
    rw [isAbsolute, parts, hsegments]
    rfl

theorem Path.isAbsolute_join {p : Path} (hp : p.isAbsolute = true) (q : Path) :
    (p.join q).isAbsolute = true := by
  obtain ⟨rest, hrest⟩ := isAbsolute_iff.mp hp
  rw [join]
  split
  · assumption
  · rw [isAbsolute_iff]
    split <;> simp [hrest]

theorem Spot.names_of_step {s t : Spot} {name : Name} (h : s.step name.1.toList = .ok t) :
    t.names = name.1 :: s.names := by
  have hname := name.2.1
  rcases Spot.step_cases h with ⟨hup, -⟩ | ⟨other, e, hother, -, -, rfl⟩ | ⟨hnone, -⟩
  · cases hname.symm.trans hup
  · obtain rfl := Component.name.inj (Option.some.inj (hname.symm.trans hother))
    rfl
  · cases hname.symm.trans hnone

/-- Names lead down from a spot, never beside it. -/
theorem Spot.names_of_steps {s t : Spot} {names : List Name}
    (h : (nameSegments names).foldlM Spot.step s = .ok t) : s.names <:+ t.names := by
  have hkept : ∀ u v : Spot, ∀ segment ∈ nameSegments names, s.names <:+ u.names →
      u.step segment = .ok v → s.names <:+ v.names := by
    intro u v segment hsegment hbelow hstep
    obtain ⟨name, -, rfl⟩ := List.mem_map.mp hsegment
    rw [Spot.names_of_step hstep]
    exact hbelow.trans (List.suffix_cons _ _)
  exact Spot.kept_of_steps hkept h (List.suffix_refl _)

namespace Analyzer

variable {a : Analyzer} {disk : Disk} {root : Path}

/-- The analysis covers the file that these names lead to, the last name first. -/
def Covers (a : Analyzer) (disk : Disk) (names : List String) : Prop :=
  ∃ found p spot, a.discover disk = .ok found ∧ p ∈ a.selected disk found ∧
    disk.find p = .ok spot ∧ spot.names = names

/-- The analysis covers the files that it would cover if it started at the root. -/
def Honours (a : Analyzer) (disk : Disk) (root : Path) : Prop :=
  ∀ names, a.Covers disk names ↔ (a.rootedAt root).Covers disk names

theorem honours_root (a : Analyzer) (disk : Disk) : a.Honours disk a.root := fun _ => Iff.rfl

/-- The root of a walk is a file, and nothing else is found, or it is a directory, and names lead
from it to all that is found. -/
theorem discover_cases (hdisk : disk.top.Proper) (hroot : a.root.isAbsolute = true)
    {found : List Path} (hfound : a.discover disk = .ok found) :
    (∃ spot, disk.find a.root = .ok spot ∧ spot.entry.isFile = true ∧ found = [a.root]) ∨
      disk.HasDirectory a.root ∧ ∀ p ∈ found, ∃ names, a.root.under names = p := by
  have hentries := mapError_eq_ok_iff.mp hfound
  cases hspot : disk.find a.root with
  | error fault =>
    rw [Walk.entries, hspot] at hentries
    cases hentries
  | ok spot =>
    cases hkind : spot.entry.isFile with
    | true =>
      rw [discover_of_isFile hspot hkind] at hfound
      exact Or.inl ⟨spot, rfl, hkind, (Except.ok.inj hfound).symm⟩
    | false =>
      have hdirectory : disk.HasDirectory a.root := ⟨hdisk, hroot, spot, hspot, hkind⟩
      exact Or.inr ⟨hdirectory, (Walk.entries_of_hasDirectory hdirectory hentries).2⟩

/-- All files that an analysis covers lie at its root or below it. -/
theorem covers_below (hdisk : disk.top.Proper) (hroot : root.isAbsolute = true)
    {names : List String} (h : (a.rootedAt root).Covers disk names) :
    ∃ spot, disk.find root = .ok spot ∧ spot.names <:+ names := by
  obtain ⟨found, p, file, hfound, hselected, hfile, rfl⟩ := h
  have hp := (mem_selected.mp hselected).1
  have hunder : ∃ spot chain, disk.find root = .ok spot ∧ root.under chain = p := by
    -- Left to find the analyzer by itself, Lean would unfold both sides first.
    have hcases := @discover_cases (a.rootedAt root) disk hdisk hroot found hfound
    rcases hcases with ⟨spot, hspot, -, rfl⟩ | ⟨hdirectory, hchains⟩
    · exact ⟨spot, [], hspot, (List.mem_singleton.mp hp).symm⟩
    · obtain ⟨spot, hspot, -⟩ := hdirectory.directory
      obtain ⟨chain, hchain⟩ := hchains p hp
      exact ⟨spot, chain, hspot, hchain⟩
  obtain ⟨spot, chain, hspot, rfl⟩ := hunder
  refine ⟨spot, hspot, ?_⟩
  exact Spot.names_of_steps ((Disk.find_under_eq_ok_iff hroot hspot chain).mp hfile).2

/-- A file that does not lie below a root shows that the root is not honoured. -/
theorem not_honours (hdisk : disk.top.Proper) (hroot : root.isAbsolute = true)
    {names : List String} (h : a.Covers disk names)
    (hbeside : ∀ spot, disk.find root = .ok spot → ¬ spot.names <:+ names) :
    ¬ a.Honours disk root := by
  intro hhonours
  obtain ⟨spot, hspot, hbelow⟩ := covers_below hdisk hroot ((hhonours names).mp h)
  exact hbeside spot hspot hbelow

end Analyzer

def Config.withRoot (config : Config) (root : Path) : Config :=
  { config with analyzer.root := root }

def Analyzer.withConfiguredRoot (a : Analyzer) (root : Path) : Analyzer :=
  { a with config := a.config.withRoot root }

namespace CommandLine

open Analyzer

/-- An analyzer keeps the root of its configuration, but makes no use of it. -/
theorem analyzerFor_withRoot (current : Path) (options : CheckOptions) (config : Config)
    (rules : List Rule) (root : Path) :
    analyzerFor current options (config.withRoot root) rules =
      (analyzerFor current options config rules).map (·.withConfiguredRoot root) := by
  have hpatterns : (setupOf options (config.withRoot root) rules).patterns =
      (setupOf options config rules).patterns := rfl
  rw [analyzerFor, analyzerFor, Setup.build, Setup.build, hpatterns]
  cases (setupOf options config rules).patterns.mapM fun p =>
    (Glob.parse p).mapError AnalysisError.badPattern <;> rfl

section Configurations

variable {disk : Disk} {file other : Option ConfigFile} {config : Config} {root : Path}
  (h : loadConfig disk file = .ok config)
  (hother : loadConfig disk other = .ok (config.withRoot root))

include h hother

theorem prepare_withRoot (options : CheckOptions) :
    prepare disk other options =
      (fun prepared => (prepared.1, prepared.2.withConfiguredRoot root)) <$>
        prepare disk file options := by
  rw [prepare, prepare, h, hother]
  change config.threshold.mapError CheckError.threshold >>= _ =
    _ <$> (config.threshold.mapError CheckError.threshold >>= _)
  rw [map_bind]
  refine bind_congr fun threshold => ?_
  rw [map_bind]
  refine bind_congr fun rules => ?_
  rw [analyzerFor_withRoot]
  cases analyzerFor disk.current options config rules <;> rfl

theorem check_withRoot (grammar : Grammar) (options : CheckOptions) :
    check disk grammar other options =
      (fun c => { c with analyzer := c.analyzer.withConfiguredRoot root }) <$>
        check disk grammar file options := by
  rw [check, check, prepare_withRoot h hother, bind_map_left, map_bind]
  refine bind_congr fun prepared => ?_
  rw [map_bind]
  rfl

end Configurations

theorem render_withConfiguredRoot (draw : Drawing) (disk : Disk) (a : Analyzer) (root : Path)
    (r : Report) (format : Format) :
    format.render draw disk (a.withConfiguredRoot root) r = format.render draw disk a r := by
  cases format <;> rfl

/-- Configurations that differ in the root alone exit and print alike. -/
theorem runCheck_withRoot {e : Environment} {i j : Invocation} {options : CheckOptions}
    {config : Config} {root : Path}
    (h : loadConfig e.disk (e.configFile? i options.path) = .ok config)
    (hother : loadConfig e.disk (e.configFile? j options.path) = .ok (config.withRoot root)) :
    (runCheck e j options).exitCode = (runCheck e i options).exitCode ∧
      (runCheck e j options).output = (runCheck e i options).output := by
  have hcheck' := check_withRoot h hother e.grammar options
  cases hcheck : check e.disk e.grammar (e.configFile? i options.path) options with
  | error error =>
    rw [hcheck] at hcheck'
    simp only [runCheck, hcheck, hcheck']
    exact ⟨rfl, rfl⟩
  | ok c =>
    rw [hcheck] at hcheck'
    obtain ⟨hcode, houtput⟩ := runCheck_of_ok hcheck
    obtain ⟨hcode', houtput'⟩ := runCheck_of_ok hcheck'
    rw [hcode, hcode', houtput, houtput', render_withConfiguredRoot]
    exact ⟨rfl, rfl⟩

def pathArgument? (arguments : List String) : Option String :=
  match readLevel .program {} none arguments with
  | .ok (_, some (scope, rest)) =>
    match readLevel scope {} none rest with
    | .ok (given, _) => given.path
    | .error _ => none
  | _ => none

/-- If the arguments give no path, the command line names the current directory in its place. -/
theorem path_of_parse {arguments : List String} {i : Invocation} {options : CheckOptions}
    (hparse : parse arguments = .ok i) (hcommand : i.command = .check options) :
    options.path = ⟨(pathArgument? arguments).getD "."⟩ := by
  obtain ⟨⟨outer, command⟩, houter, hparse⟩ := bind_eq_ok_iff.mp hparse
  cases command with
  | none => cases hparse
  | some named =>
    obtain ⟨scope, rest⟩ := named
    obtain ⟨⟨inner, tail⟩, hinner, hparse⟩ := bind_eq_ok_iff.mp hparse
    obtain ⟨command, hcommandOf, hparse⟩ := bind_eq_ok_iff.mp hparse
    obtain rfl := Except.ok.inj hparse
    obtain rfl : command = .check options := hcommand
    simp only [pathArgument?, houter, hinner]
    cases scope with
    | check =>
      obtain rfl := Command.check.inj (Except.ok.inj hcommandOf)
      rfl
    | program => cases hcommandOf
    | listRules => cases hcommandOf
    | init => cases hcommandOf

/-- A check starts at the path among its arguments, and covers only files at this path or below it.
If no path is given, it starts at the current directory. The root of the configuration makes no
difference to the outcome: it is honoured if the check starts there anyway, and not if a file that
is covered lies elsewhere. -/
theorem configured_root_has_no_say {e : Environment} {arguments : List String} {i : Invocation}
    {options : CheckOptions} {config : Config} {a : Analyzer}
    (hparse : parse arguments = .ok i) (hcommand : i.command = .check options)
    (hconfig : loadConfig e.disk (e.configFile? i options.path) = .ok config)
    (hbuilt : Built e.disk.current options config a) :
    (∀ path, pathArgument? arguments = some path → a.root = e.disk.current.join ⟨path⟩) ∧
    (pathArgument? arguments = none → a.root = e.disk.current.join ⟨"."⟩) ∧
    (e.disk.top.Proper → e.disk.current.isAbsolute = true → ∀ names, a.Covers e.disk names →
      ∃ spot, e.disk.find a.root = .ok spot ∧ spot.names <:+ names) ∧
    (∀ others j root, parse others = .ok j → j.command = .check options →
      loadConfig e.disk (e.configFile? j options.path) = .ok (config.withRoot root) →
      (run e others).exitCode = (run e arguments).exitCode ∧
        (run e others).output = (run e arguments).output) ∧
    (e.disk.current.join config.analyzer.root = a.root →
      a.Honours e.disk (e.disk.current.join config.analyzer.root)) ∧
    (e.disk.top.Proper → e.disk.current.isAbsolute = true → ∀ names, a.Covers e.disk names →
      (∀ spot, e.disk.find (e.disk.current.join config.analyzer.root) = .ok spot →
        ¬ spot.names <:+ names) →
      ¬ a.Honours e.disk (e.disk.current.join config.analyzer.root)) := by
  have hroot : a.root = e.disk.current.join ⟨(pathArgument? arguments).getD "."⟩ := by
    rw [hbuilt.root, path_of_parse hparse hcommand]
  refine ⟨?_, ?_, ?_, ?_, ?_, ?_⟩
  · intro path hpath
    rw [hroot, hpath]
    rfl
  · intro hnone
    rw [hroot, hnone]
    rfl
  · intro hdisk hcurrent names hcovers
    exact covers_below hdisk (hroot ▸ isAbsolute_join hcurrent _) hcovers
  · intro others j root hothers hcommand' hconfig'
    rw [run_of_check hparse hcommand, run_of_check hothers hcommand']
    exact runCheck_withRoot hconfig hconfig'
  · intro hsame
    rw [hsame]
    exact honours_root a e.disk
  · intro hdisk hcurrent names hcovers hbeside
    exact not_honours hdisk (isAbsolute_join hcurrent _) hcovers hbeside

/-- A directory with a file beside the directory `src`, and two configurations: with `src` as the
root and with another one. -/
def outlying : Environment where
  disk := {
    top := .directory [("a.ts", .file { text := "s.subscribe(a, b);" }),
      ("src", .directory [("b.ts", .file { text := "" })]),
      ("c.toml", .file { text := "[analyzer]\nroot = \"src\"\n" }),
      ("d.toml", .file { text := "[analyzer]\nroot = \"lib\"\n" })]
    current := ⟨"/"⟩ }
  grammar _ _ := (.mk { kind := .program, stop := 18 } [Oracle.subscription 0], false)

def outlyingConfig : Config := ({} : Config).withRoot ⟨"src"⟩

def outlyingAnalyzer : Analyzer :=
  { singleAnalyzer with root := ⟨"/."⟩, config := outlyingConfig }

theorem loadConfig_outlying :
    loadConfig outlying.disk (some ⟨⟨"/c.toml"⟩, false⟩) = .ok outlyingConfig := by
  have hfind : outlying.disk.find ⟨"/c.toml"⟩ = .ok _ :=
    (Disk.find_eq_ok_iff (by decide)).mpr ⟨⟨by decide, by decide⟩, rfl⟩
  exact loadConfig_of_file hfind rfl rfl rfl

theorem parse_outlying : parse ["check", "-c", "/c.toml"] =
      .ok { config := some ⟨"/c.toml"⟩, command := .check {} } := by decide

theorem join_here : (Path.mk "/").join ⟨"."⟩ = ⟨"/."⟩ :=
  (join_after_slash (by decide) (by decide)).trans rfl

theorem outlyingAnalyzer_built : Built outlying.disk.current {} outlyingConfig outlyingAnalyzer :=
  ⟨join_here.symm, selectRules_of_no_tables rfl, singleAnalyzer_built.excludes, rfl, rfl⟩

theorem join_src : (Path.mk "/").join ⟨"src"⟩ = ⟨"/src"⟩ :=
  (join_after_slash (by decide) (by decide)).trans rfl

theorem find_here : outlying.disk.find ⟨"/."⟩ = .ok ⟨outlying.disk.top, [], []⟩ :=
  (Disk.find_eq_ok_iff (by decide)).mpr ⟨⟨by decide, by decide⟩, rfl⟩

theorem outlying_proper : outlying.disk.top.Proper := by
  simp [outlying, Entry.Proper, Entry.ProperAll, Path.IsName, Path.component?]

theorem outlying_hasDirectory : outlying.disk.HasDirectory ⟨"/."⟩ :=
  ⟨outlying_proper, by decide, _, find_here, rfl⟩

def outlyingName : Name := ⟨"a.ts", by decide, by decide⟩

def outlyingChains : List (List Name) :=
  [[], [outlyingName], [⟨"src", by decide, by decide⟩],
    [⟨"src", by decide, by decide⟩, ⟨"b.ts", by decide, by decide⟩],
    [⟨"c.toml", by decide, by decide⟩], [⟨"d.toml", by decide, by decide⟩]]

theorem entries_outlying : Walk.entries outlying.disk ⟨"/."⟩ true =
    .ok (outlyingChains.map (Path.mk "/.").under) := by
  rw [Walk.entries, find_here]
  rfl

theorem find_outlying : outlying.disk.find ((Path.mk "/.").under [outlyingName]) =
    .ok ⟨.file { text := "s.subscribe(a, b);" }, ["a.ts"], [outlying.disk.top]⟩ := by
  have hjoin : (Path.mk "/.").join ⟨"a.ts"⟩ = ⟨"/./a.ts"⟩ :=
    (join_after_name (by decide) (by decide) (by decide)).trans rfl
  change outlying.disk.find ((Path.mk "/.").join ⟨"a.ts"⟩) = _
  rw [hjoin]
  exact (Disk.find_eq_ok_iff (by decide)).mpr ⟨⟨by decide, by decide⟩, rfl⟩

theorem selected_outlying :
    outlyingAnalyzer.Selected outlying.disk ((Path.mk "/.").under [outlyingName]) := by
  refine (selected_under_iff (a := outlyingAnalyzer) outlying_hasDirectory _).mpr ⟨?_, ?_, ?_⟩
  · rw [← Disk.isFile_iff, Disk.isFile, find_outlying]
    rfl
  · exact ⟨.typeScript, by decide⟩
  · have hunmatched : outlyingAnalyzer.excludes.all
        (fun glob => !glob.isMatch (ofNames [outlyingName]).text) = true := by decide
    simpa using hunmatched

theorem outlying_covers : outlyingAnalyzer.Covers outlying.disk ["a.ts"] := by
  have hdiscover : (outlyingAnalyzer.rootedAt ⟨"/."⟩).discover outlying.disk =
      .ok (outlyingChains.map (Path.mk "/.").under) := discover_eq_ok_iff.mpr entries_outlying
  have hmem : (Path.mk "/.").under [outlyingName] ∈ outlyingChains.map (Path.mk "/.").under :=
    List.mem_map_of_mem (List.mem_cons_of_mem _ List.mem_cons_self)
  exact ⟨outlyingChains.map (Path.mk "/.").under, (Path.mk "/.").under [outlyingName], _, hdiscover,
    mem_selected.mpr ⟨hmem, selected_outlying⟩, find_outlying, rfl⟩

/-- The file lies beside `src`. -/
theorem outlying_beside {spot : Spot}
    (h : outlying.disk.find (outlying.disk.current.join ⟨"src"⟩) = .ok spot) :
    ¬ spot.names <:+ ["a.ts"] := by
  have hfind : outlying.disk.find ⟨"/src"⟩ =
      .ok ⟨.directory [("b.ts", .file { text := "" })], ["src"], [outlying.disk.top]⟩ :=
    (Disk.find_eq_ok_iff (by decide)).mpr ⟨⟨by decide, by decide⟩, rfl⟩
  change outlying.disk.find ((Path.mk "/").join ⟨"src"⟩) = .ok spot at h
  rw [join_src, hfind] at h
  obtain rfl := Except.ok.inj h
  decide

/-- The file is covered though the configuration sets `src` as the root, and setting another one
changes nothing. -/
theorem outlying_file_checked :
    parse ["check", "-c", "/c.toml"] =
        .ok { config := some ⟨"/c.toml"⟩, command := .check {} } ∧
      loadConfig outlying.disk (some ⟨⟨"/c.toml"⟩, false⟩) = .ok outlyingConfig ∧
      Built outlying.disk.current {} outlyingConfig outlyingAnalyzer ∧
      ¬ outlyingAnalyzer.Honours outlying.disk (outlying.disk.current.join ⟨"src"⟩) ∧
      (run outlying ["check", "-c", "/d.toml"]).output =
        (run outlying ["check", "-c", "/c.toml"]).output := by
  have hother : parse ["check", "-c", "/d.toml"] =
      .ok { config := some ⟨"/d.toml"⟩, command := .check {} } := by decide
  have hfind : outlying.disk.find ⟨"/d.toml"⟩ = .ok _ :=
    (Disk.find_eq_ok_iff (by decide)).mpr ⟨⟨by decide, by decide⟩, rfl⟩
  have hotherConfig : loadConfig outlying.disk (some ⟨⟨"/d.toml"⟩, false⟩) =
      .ok (outlyingConfig.withRoot ⟨"lib"⟩) := loadConfig_of_file hfind rfl rfl rfl
  obtain ⟨-, -, -, hsame, -, hbeside⟩ := configured_root_has_no_say (e := outlying) parse_outlying
    rfl loadConfig_outlying outlyingAnalyzer_built
  exact ⟨parse_outlying, loadConfig_outlying, outlyingAnalyzer_built,
    hbeside outlying_proper (by decide) ["a.ts"] outlying_covers fun _ => outlying_beside,
    (hsame _ _ ⟨"lib"⟩ hother rfl hotherConfig).2⟩

/-- Without a path the check covers a file that does not lie below the configured root. -/
theorem configured_root_not_kept_to :
    parse ["check", "-c", "/c.toml"] =
        .ok { config := some ⟨"/c.toml"⟩, command := .check {} } ∧
      pathArgument? ["check", "-c", "/c.toml"] = none ∧
      loadConfig outlying.disk (some ⟨⟨"/c.toml"⟩, false⟩) = .ok outlyingConfig ∧
      outlyingConfig.analyzer.root = ⟨"src"⟩ ∧
      Built outlying.disk.current {} outlyingConfig outlyingAnalyzer ∧
      outlyingAnalyzer.Covers outlying.disk ["a.ts"] ∧
      ¬ (outlyingAnalyzer.rootedAt (outlying.disk.current.join ⟨"src"⟩)).Covers outlying.disk
        ["a.ts"] := by
  refine ⟨parse_outlying, by decide, loadConfig_outlying, rfl, outlyingAnalyzer_built,
    outlying_covers, ?_⟩
  intro hcovers
  obtain ⟨spot, hspot, hbelow⟩ :=
    covers_below outlying_proper (isAbsolute_join (by decide) _) hcovers
  exact outlying_beside hspot hbelow

end CommandLine

end ObserverLint
