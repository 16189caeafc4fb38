import ObserverLint.CommandLine.Run
import ObserverLint.Proofs.Analysis
import ObserverLint.Proofs.Resolution
import ObserverLint.Proofs.Validity

namespace ObserverLint

namespace Report

variable {r : Report} {s : Severity}

theorem hasAtLeast_iff : r.hasAtLeast s = true ↔ ∃ v ∈ r.violations, s ≤ v.severity := by
  simp [hasAtLeast]

theorem count_pos_iff : 0 < r.count s ↔ ∃ v ∈ r.violations, v.severity = s := by
  rw [count, bySeverity, List.length_pos_iff_exists_mem]
  simp only [List.mem_filter, beq_iff_eq]

/-- Every violation is counted once. -/
theorem counts_add_up (r : Report) :
    r.count .error + r.count .warning + r.count .info = r.violations.length := by
  simp only [count, bySeverity]
  induction r.violations with
  | nil => rfl
  | cons v vs ih =>
    cases h : v.severity <;> simp [h] <;> omega

theorem hasAtLeast_error : r.hasAtLeast .error = true ↔ 0 < r.count .error := by
  have hle (v : Violation) : .error ≤ v.severity ↔ v.severity = .error := by
    cases v.severity <;> decide
  simp only [hasAtLeast_iff, count_pos_iff, hle]

theorem hasAtLeast_warning :
    r.hasAtLeast .warning = true ↔ 0 < r.count .error + r.count .warning := by
  have hle (v : Violation) : .warning ≤ v.severity ↔
      v.severity = .error ∨ v.severity = .warning := by
    cases v.severity <;> decide
  simp only [hasAtLeast_iff, Nat.add_pos_iff_pos_or_pos, count_pos_iff, hle, and_or_left, exists_or]

theorem hasAtLeast_info :
    r.hasAtLeast .info = true ↔ 0 < r.count .error + r.count .warning + r.count .info := by
  have hle (v : Violation) : .info ≤ v.severity := by
    cases v.severity <;> decide
  simp only [hasAtLeast_iff, counts_add_up, List.length_pos_iff_exists_mem, hle, and_true]

end Report

namespace CommandLine

open Analyzer

section Runs

variable {e : Environment} {i : Invocation} {options : CheckOptions} {arguments : List String}

theorem run_of_check (hparse : parse arguments = .ok i) (hcommand : i.command = .check options) :
    run e arguments = runCheck e i options := by
  simp only [run, hparse, runInvocation, hcommand]

theorem runCheck_of_ok {c : Checked}
    (h : check e.disk e.grammar (e.configFile? i options.path) options = .ok c) :
    (runCheck e i options).exitCode = exitCodeOf c.threshold c.report ∧
      (runCheck e i options).output =
        options.format.render e.draw e.disk c.analyzer c.report := by
  simp only [runCheck, h, and_self]

theorem runCheck_of_error {error : CheckError}
    (h : check e.disk e.grammar (e.configFile? i options.path) options = .error error) :
    (runCheck e i options).exitCode = 1 := by
  simp only [runCheck, h]

theorem exitCodeOf_eq_zero_iff {threshold : Severity} {report : Report} :
    exitCodeOf threshold report = 0 ↔ ∀ v ∈ report.violations, ¬ threshold ≤ v.severity := by
  have hnot : report.hasAtLeast threshold = false ↔
      ∀ v ∈ report.violations, ¬ threshold ≤ v.severity := by
    rw [← Bool.not_eq_true, Report.hasAtLeast_iff, not_exists]
    simp only [not_and]
  rw [← hnot, exitCodeOf]
  cases report.hasAtLeast threshold <;> simp

theorem exitCodeOf_eq_one_iff {threshold : Severity} {report : Report} :
    exitCodeOf threshold report = 1 ↔ report.hasAtLeast threshold = true := by
  rw [exitCodeOf]
  cases report.hasAtLeast threshold <;> simp

theorem exitCode_zero_or_one (e : Environment) (i : Invocation) (options : CheckOptions) :
    (runCheck e i options).exitCode = 0 ∨ (runCheck e i options).exitCode = 1 := by
  cases hcheck : check e.disk e.grammar (e.configFile? i options.path) options with
  | error error => exact Or.inr (runCheck_of_error hcheck)
  | ok c =>
    rw [(runCheck_of_ok hcheck).1, exitCodeOf]
    cases c.report.hasAtLeast c.threshold with
    | true => exact Or.inr rfl
    | false => exact Or.inl rfl

theorem runCheck_exitCode_eq_zero_iff :
    (runCheck e i options).exitCode = 0 ↔ ∃ c,
      check e.disk e.grammar (e.configFile? i options.path) options = .ok c ∧
        ∀ v ∈ c.report.violations, ¬ c.threshold ≤ v.severity := by
  constructor
  · intro h
    cases hcheck : check e.disk e.grammar (e.configFile? i options.path) options with
    | error error =>
      rw [runCheck_of_error hcheck] at h
      cases h
    | ok c =>
      rw [(runCheck_of_ok hcheck).1, exitCodeOf_eq_zero_iff] at h
      exact ⟨c, rfl, h⟩
  · rintro ⟨c, hcheck, hnone⟩
    rw [(runCheck_of_ok hcheck).1, exitCodeOf_eq_zero_iff]
    exact hnone

/-- Neither the format nor the wish for more words has a say in the exit code. -/
theorem runCheck_exitCode_of_format {j : Invocation} (hconfig : j.config = i.config)
    (format : Format) :
    (runCheck e j { options with format }).exitCode = (runCheck e i options).exitCode := by
  have hfile : e.configFile? j options.path = e.configFile? i options.path := by
    rw [Environment.configFile?, Environment.configFile?, hconfig]
  have hsame : check e.disk e.grammar (e.configFile? j options.path) { options with format } =
      check e.disk e.grammar (e.configFile? i options.path) options := by
    rw [hfile]
    rfl
  simp only [runCheck, hsame]
  split <;> rfl

end Runs

def closingLine (errors warnings infos files : Nat) : String :=
  s!"Found {errors} error(s), {warnings} warning(s), {infos} info(s) in " ++ s!"{files} file(s)"

/-- A check exits with 0 exactly if the configuration loads, its threshold is a severity, the
options of the rules are valid, all patterns can be read, the analysis succeeds and nothing found is
as bad as the threshold; otherwise it exits with 1. The format has no say in it, and the exit code
agrees with the counts of the closing line. -/
theorem check_exit_code {e : Environment} {arguments : List String} {i : Invocation}
    {options : CheckOptions} (hparse : parse arguments = .ok i)
    (hcommand : i.command = .check options) :
    ((run e arguments).exitCode = 0 ↔
      ∃ config threshold a report,
        loadConfig e.disk (e.configFile? i options.path) = .ok config ∧
        config.FailsAt threshold ∧ RulesValid config ∧
        (∀ pattern ∈ options.excludes ++ config.analyzer.exclude, Compiles pattern) ∧
        Built e.disk.current options config a ∧ a.analyze e.disk e.grammar = .ok report ∧
        ∀ v ∈ report.violations, ¬ threshold ≤ v.severity) ∧
    ((run e arguments).exitCode = 0 ∨ (run e arguments).exitCode = 1) ∧
    (∀ config, (∃ a, Built e.disk.current options config a) ↔
      RulesValid config ∧
        ∀ pattern ∈ options.excludes ++ config.analyzer.exclude, Compiles pattern) ∧
    (∀ others j format, parse others = .ok j → j.config = i.config →
      j.command = .check { options with format } →
      (run e others).exitCode = (run e arguments).exitCode) ∧
    (∀ config threshold a r,
      loadConfig e.disk (e.configFile? i options.path) = .ok config →
      config.FailsAt threshold → Built e.disk.current options config a →
      a.analyze e.disk e.grammar = .ok r →
      (threshold = .error → ((run e arguments).exitCode = 1 ↔ 0 < r.count .error)) ∧
      (threshold = .warning → ((run e arguments).exitCode = 1 ↔
        0 < r.count .error + r.count .warning)) ∧
      (threshold = .info → ((run e arguments).exitCode = 1 ↔
        0 < r.count .error + r.count .warning + r.count .info)) ∧
      r.count .error + r.count .warning + r.count .info = r.violations.length ∧
      (options.format = .text → ∃ lines colour, (run e arguments).output = lines ++ (colour ++
        closingLine (r.count .error) (r.count .warning) (r.count .info) r.filesChecked ++
          "\x1b[0m\n"))) := by
  rw [run_of_check hparse hcommand]
  refine ⟨?_, exitCode_zero_or_one e i options, fun config => exists_built_iff, ?_, ?_⟩
  · rw [runCheck_exitCode_eq_zero_iff]
    constructor
    · rintro ⟨c, hcheck, hnone⟩
      obtain ⟨config, hconfig, hthreshold, hbuilt, hreport⟩ := check_eq_ok_iff.mp hcheck
      obtain ⟨hvalid, hpatterns⟩ := exists_built_iff.mp ⟨c.analyzer, hbuilt⟩
      exact ⟨config, c.threshold, c.analyzer, c.report, hconfig, hthreshold, hvalid, hpatterns,
        hbuilt, hreport, hnone⟩
    · rintro ⟨config, threshold, a, report, hconfig, hthreshold, -, -, hbuilt, hreport, hnone⟩
      exact ⟨⟨threshold, a, report⟩,
        check_eq_ok_iff.mpr ⟨config, hconfig, hthreshold, hbuilt, hreport⟩, hnone⟩
  · intro others j format hothers hconfig hformat
    rw [run_of_check hothers hformat]
    exact runCheck_exitCode_of_format hconfig format
  · intro config threshold a report hconfig hthreshold hbuilt hreport
    have hrun := @runCheck_of_ok e i options ⟨threshold, a, report⟩
      (check_eq_ok_iff.mpr ⟨config, hconfig, hthreshold, hbuilt, hreport⟩)
    rw [hrun.1, hrun.2, exitCodeOf_eq_one_iff]
    refine ⟨?_, ?_, ?_, report.counts_add_up, ?_⟩
    · rintro rfl
      exact Report.hasAtLeast_error
    · rintro rfl
      exact Report.hasAtLeast_warning
    · rintro rfl
      exact Report.hasAtLeast_info
    · intro hformat
      rw [hformat]
      exact ⟨_, summaryColour report, rfl⟩

/-- A directory with the file `s.subscribe(a, b);` and a configuration without settings. -/
def single : Environment where
  disk := {
    top := .directory [("a.ts", .file { text := "s.subscribe(a, b);" }),
      ("c.toml", .file { text := "" })]
    current := ⟨"/"⟩ }
  grammar _ _ := (.mk { kind := .program, stop := 18 } [Oracle.subscription 0], false)

def singleOptions : CheckOptions where
  path := ⟨"/a.ts"⟩

def singleAnalyzer : Analyzer where
  root := ⟨"/a.ts"⟩
  rules := [PreferObserver.rule {}]
  excludes := defaultExcludes.filterMap fun pattern => (Glob.parse pattern).toOption
  config := {}
  failOnParseError := false

def singleViolation : Violation where
  code := "RX001"
  rule := "prefer-observer"
  severity := .error
  location := { file := ⟨"a.ts"⟩, line := 1, column := 3, offset := 2, length := 9 }
  message := "Passing separate handlers is forbidden; pass an observer instead."
  messageId := some "forbidden"
  docRef := some "docs/rules/prefer-observer.md"

theorem singleAnalyzer_built : Built single.disk.current singleOptions {} singleAnalyzer := by
  have hglobs : defaultExcludes.mapM Glob.parse = .ok singleAnalyzer.excludes := by decide
  exact ⟨by decide, selectRules_of_no_tables rfl, Traversal.mapM_eq_ok_iff.mp hglobs, rfl, rfl⟩

theorem find_single : single.disk.find ⟨"/a.ts"⟩ =
    .ok ⟨.file { text := "s.subscribe(a, b);" }, ["a.ts"], [single.disk.top]⟩ :=
  (Disk.find_eq_ok_iff (by decide)).mpr ⟨⟨by decide, by decide⟩, rfl⟩

theorem baseDir_single : singleAnalyzer.baseDir single.disk = ⟨"/"⟩ := by
  rw [baseDir, singleAnalyzer, Disk.isFile_of_find find_single]
  decide

def violationAt (file : Path) : Violation :=
  { singleViolation with location := { singleViolation.location with file } }

theorem check_single (p file : Path) :
    PreferObserver.check {} file (.parse single.grammar p .typeScript "s.subscribe(a, b);") =
      [violationAt file] := by
  have hcheck : PreferObserver.check {} ⟨"a.ts"⟩
      (.parse single.grammar ⟨"/a.ts"⟩ .typeScript "s.subscribe(a, b);") = [singleViolation] := by
    decide
  have hmoved := congrArg (List.map fun v =>
    { v with location := { v.location with file } }) hcheck
  rw [PreferObserver.check, PreferObserver.checkWith, List.map_map] at hmoved
  exact hmoved

theorem reportOf_single (p file : Path) :
    reportOf {} file (.parse single.grammar p .typeScript "s.subscribe(a, b);")
      (PreferObserver.rule {}) = [violationAt file] := by
  have hallowance : Allowance.check "s.subscribe(a, b);" (violationAt file).location.line
      (PreferObserver.rule {}).name = .denied := by
    change Allowance.check _ 1 "prefer-observer" = _
    decide
  have hsettle : settle (PreferObserver.rule {}) "s.subscribe(a, b);" (violationAt file) =
      some (violationAt file) := by
    rw [settle, hallowance]
  change ((PreferObserver.check {} _ _).map (withSeverity none)).filterMap
    (settle (PreferObserver.rule {}) "s.subscribe(a, b);") = _
  rw [check_single]
  change List.filterMap _ [violationAt file] = _
  rw [List.filterMap_cons_some hsettle, List.filterMap_nil]

theorem analyzeFile_single :
    singleAnalyzer.analyzeFile single.disk single.grammar ⟨"/a.ts"⟩ = .ok [singleViolation] := by
  have hread : single.disk.readText ⟨"/a.ts"⟩ = .ok "s.subscribe(a, b);" :=
    Disk.readText_of_find find_single rfl rfl
  have hdialect : Dialect.ofPath? ⟨"/a.ts"⟩ = some .typeScript := by decide
  have hrelative : (Path.mk "/a.ts").relativeTo ⟨"/"⟩ = ⟨"a.ts"⟩ := by decide
  rw [analyzeFile, hread, baseDir_single]
  change singleAnalyzer.analyzeSource single.grammar ⟨"/"⟩ ⟨"/a.ts"⟩ "s.subscribe(a, b);" = _
  simp only [analyzeSource, hdialect, hrelative]
  change Except.ok (reportOf {} _ _ (PreferObserver.rule {}) ++ []) = _
  rw [reportOf_single, List.append_nil]
  rfl

theorem analyze_single :
    singleAnalyzer.analyze single.disk single.grammar = .ok ⟨[singleViolation], 1⟩ := by
  have hdiscover : singleAnalyzer.discover single.disk = .ok [⟨"/a.ts"⟩] :=
    discover_of_isFile find_single rfl
  have hselected : singleAnalyzer.Selected single.disk ⟨"/a.ts"⟩ := by
    refine ⟨Disk.isFile_of_find find_single, ⟨.typeScript, by decide⟩, ?_⟩
    rw [baseDir_single]
    decide
  rw [analyze, hdiscover]
  exact analyzeFound_of_one (selected_of_one hselected) analyzeFile_single

/-- The call makes the check fail, whatever the format. -/
theorem single_check_fails :
    parse ["check", "-c", "/c.toml", "/a.ts"] =
        .ok { config := some ⟨"/c.toml"⟩, command := .check singleOptions } ∧
      (run single ["check", "-c", "/c.toml", "/a.ts"]).exitCode = 1 ∧
      (run single ["check", "-f", "json", "-c", "/c.toml", "/a.ts"]).exitCode = 1 := by
  have hparse : parse ["check", "-c", "/c.toml", "/a.ts"] =
      .ok { config := some ⟨"/c.toml"⟩, command := .check singleOptions } := by decide
  have hjson : parse ["check", "-f", "json", "-c", "/c.toml", "/a.ts"] =
      .ok { config := some ⟨"/c.toml"⟩
            command := .check { singleOptions with format := .json } } := by decide
  have hfind : single.disk.find ⟨"/c.toml"⟩ = .ok _ :=
    (Disk.find_eq_ok_iff (by decide)).mpr ⟨⟨by decide, by decide⟩, rfl⟩
  have hconfig : loadConfig single.disk (some ⟨⟨"/c.toml"⟩, false⟩) = .ok {} :=
    loadConfig_of_file hfind rfl rfl rfl
  obtain ⟨-, -, -, hformat, hcounts⟩ := check_exit_code (e := single) hparse rfl
  have hfails : (run single ["check", "-c", "/c.toml", "/a.ts"]).exitCode = 1 :=
    ((hcounts {} .error singleAnalyzer _ hconfig (.unset rfl) singleAnalyzer_built
      analyze_single).1 rfl).mpr (by decide)
  exact ⟨hparse, hfails, (hformat _ _ .json hjson rfl rfl).trans hfails⟩

end CommandLine

end ObserverLint
