import ObserverLint.Proofs.Resolution
import ObserverLint.Proofs.Settlement
import ObserverLint.Proofs.Traversal
import ObserverLint.Rules.Catalogue
import ObserverLint.Rules.Marker

namespace ObserverLint

namespace Directive

def ReasonedOn (text : String) (n : Nat) (rule : String) : Prop :=
  ∃ d, onLine? text n = some d ∧ d.Names rule ∧ d.reason ≠ none

def BareOn (text : String) (n : Nat) (rule : String) : Prop :=
  ∃ d, onLine? text n = some d ∧ d.Names rule ∧ d.reason = none

variable {text rule : String} {line : Nat}

theorem governs_of_bareOn (h : BareOn text (line - 1) rule) :
    ∃ d, Governs text line rule d ∧ d.reason = none := by
  obtain ⟨d, hline, hnames, hreason⟩ := h
  exact ⟨d, .before hline hnames, hreason⟩

/-- The line before is asked first, so a reason on the line itself counts only if no directive
without one stands there. -/
theorem governs_of_reasonedOn (h : ReasonedOn text line rule ∨ ReasonedOn text (line - 1) rule)
    (hbare : ¬ BareOn text (line - 1) rule) :
    ∃ d, Governs text line rule d ∧ d.reason ≠ none := by
  rcases h with ⟨d, hline, hnames, hreason⟩ | ⟨d, hline, hnames, hreason⟩
  · rcases before_or_governs hline hnames with ⟨e, he, hnamed⟩ | hgoverns
    · exact ⟨e, .before he hnamed, fun hnone => hbare ⟨e, he, hnamed, hnone⟩⟩
    · exact ⟨d, hgoverns, hreason⟩
  · exact ⟨d, .before hline hnames, hreason⟩

end Directive

namespace Allowance

open Directive

variable {text rule : String} {line : Nat}

theorem check_eq_allowed_none (h : BareOn text (line - 1) rule) :
    check text line rule = .allowed none := by
  obtain ⟨d, hgoverns, hreason⟩ := governs_of_bareOn h
  rw [check_eq_allowed_of_governs hgoverns, hreason]

theorem exists_check_eq_allowed_some
    (h : ReasonedOn text line rule ∨ ReasonedOn text (line - 1) rule)
    (hbare : ¬ BareOn text (line - 1) rule) :
    ∃ reason, check text line rule = .allowed (some reason) := by
  obtain ⟨d, hgoverns, hreason⟩ := governs_of_reasonedOn h hbare
  obtain ⟨reason, hsome⟩ := Option.ne_none_iff_exists'.mp hreason
  exact ⟨reason, by rw [check_eq_allowed_of_governs hgoverns, hsome]⟩

end Allowance

namespace Analyzer

open Directive

def isOnLine (line : Nat) (v : Violation) : Bool := v.location.line == line

theorem filter_settle_isOnLine (rule : Rule) (text : String) (line : Nat) (v : Violation) :
    (settle rule text v).filter (isOnLine line) =
      if isOnLine line v then settle rule text v else none := by
  obtain ⟨outcome, hsettles⟩ := exists_settles rule text v
  rw [settle_eq_of_settles hsettles]
  cases outcome with
  | none => simp
  | some w => simp [Option.filter, isOnLine, hsettles.location]

/-- What is reported on a line comes from the findings on that line. -/
theorem reportOf_onLine (config : Config) (path : Path) (file : SourceFile) (rule : Rule)
    (line : Nat) :
    (reportOf config path file rule).filter (isOnLine line) =
      ((findingsOf config path file rule).filter (isOnLine line)).filterMap
        (settle rule file.text) := by
  rw [reportOf_eq, List.filterMap_map, Function.id_comp, List.filter_filterMap,
    List.filterMap_filter]
  apply List.filterMap_congr
  intro v _
  exact filter_settle_isOnLine rule file.text line v

theorem settle_of_check_eq_reasoned {rule : Rule} {text : String} {v : Violation} {reason : String}
    (h : Allowance.check text v.location.line rule.name = .allowed (some reason)) :
    settle rule text v = none := by
  rw [settle, h]

theorem settle_of_check_eq_bare {rule : Rule} {text : String} {v : Violation}
    (h : Allowance.check text v.location.line rule.name = .allowed none) :
    settle rule text v =
      if rule.requiresReason then some (missingReason rule v.location) else none := by
  rw [settle, h]

theorem reportOf_onLine_of_reasoned {config : Config} {path : Path} {file : SourceFile}
    {rule : Rule} {line : Nat} {reason : String}
    (h : Allowance.check file.text line rule.name = .allowed (some reason)) :
    (reportOf config path file rule).filter (isOnLine line) = [] := by
  rw [reportOf_onLine, List.filterMap_eq_nil_iff]
  intro v hv
  have hline : v.location.line = line := by simpa [isOnLine] using (List.mem_filter.mp hv).2
  exact settle_of_check_eq_reasoned (hline ▸ h)

theorem reportOf_onLine_of_bare {config : Config} {path : Path} {file : SourceFile} {rule : Rule}
    {line : Nat} (h : Allowance.check file.text line rule.name = .allowed none) :
    (reportOf config path file rule).filter (isOnLine line) =
      if rule.requiresReason then
        ((findingsOf config path file rule).filter (isOnLine line)).map fun v =>
          missingReason rule v.location
      else [] := by
  have hsettle : ∀ v ∈ (findingsOf config path file rule).filter (isOnLine line),
      settle rule file.text v =
        if rule.requiresReason then some (missingReason rule v.location) else none := by
    intro v hv
    have hline : v.location.line = line := by simpa [isOnLine] using (List.mem_filter.mp hv).2
    exact settle_of_check_eq_bare (hline ▸ h)
  rw [reportOf_onLine, List.filterMap_congr hsettle]
  cases rule.requiresReason <;> simp

/-- A reason given for a line, on the line itself or on the one before, lets the rule pass there
exactly if the line before carries no directive for the rule without a reason. If it does, a rule
that asks for reasons warns of every finding on the line. -/
theorem reason_counts_iff_none_bare_before {text name : String} {line : Nat}
    (h : ReasonedOn text line name ∨ ReasonedOn text (line - 1) name) :
    ((∃ reason, Allowance.check text line name = .allowed (some reason)) ↔
      ¬ BareOn text (line - 1) name) ∧
    ∀ (rule : Rule) (config : Config) (path : Path) (file : SourceFile),
      rule.name = name → file.text = text →
      (¬ BareOn text (line - 1) name →
        (reportOf config path file rule).filter (isOnLine line) = []) ∧
      (BareOn text (line - 1) name →
        (reportOf config path file rule).filter (isOnLine line) =
          if rule.requiresReason then
            ((findingsOf config path file rule).filter (isOnLine line)).map fun v =>
              missingReason rule v.location
          else []) := by
  refine ⟨⟨?_, Allowance.exists_check_eq_allowed_some h⟩, ?_⟩
  · intro hreason hbare
    obtain ⟨reason, hallowed⟩ := hreason
    rw [Allowance.check_eq_allowed_none hbare] at hallowed
    cases hallowed
  · intro rule config path file hname htext
    subst hname htext
    refine ⟨?_, fun hbare => reportOf_onLine_of_bare (Allowance.check_eq_allowed_none hbare)⟩
    intro hbare
    obtain ⟨reason, hallowed⟩ := Allowance.exists_check_eq_allowed_some h hbare
    exact reportOf_onLine_of_reasoned hallowed

/-- Two lines of which each has its own directive, with a reason on the first only. -/
def explainedFirst : String :=
  "s.subscribe(a, b); // rxlint: allow(m) reason=\"r\"\nt.subscribe(a, b); // rxlint: allow(m)\n"

theorem explainedFirst_reason_counts :
    ReasonedOn explainedFirst (2 - 1) "m" ∧ ¬ BareOn explainedFirst (2 - 1) "m" ∧
      ∃ reason, Allowance.check explainedFirst 2 "m" = .allowed (some reason) := by
  have hline : onLine? explainedFirst 1 = some ⟨["m"], some "r"⟩ := by decide +kernel
  have hreasoned : ReasonedOn explainedFirst (2 - 1) "m" := ⟨_, hline, by simp [Names], by simp⟩
  have hbare : ¬ BareOn explainedFirst (2 - 1) "m" := by
    intro hbare
    obtain ⟨d, hd, -, hnone⟩ := hbare
    rw [hline] at hd
    cases hd
    cases hnone
  exact ⟨hreasoned, hbare, (reason_counts_iff_none_bare_before (Or.inr hreasoned)).1.mpr hbare⟩

def explainedSecond : String :=
  "s.subscribe(a, b); // rxlint: allow(m)\nt.subscribe(a, b); // rxlint: allow(m) reason=\"r\"\n"

/-- The directive of the first line takes the place of the reason on the second. -/
theorem explainedSecond_reason_ignored :
    ReasonedOn explainedSecond 2 "m" ∧ Allowance.check explainedSecond 2 "m" = .allowed none ∧
      ∀ (rule : Rule) (v : Violation), rule.name = "m" → rule.requiresReason = true →
        v.location.line = 2 →
        settle rule explainedSecond v = some (missingReason rule v.location) := by
  have hline : onLine? explainedSecond 2 = some ⟨["m"], some "r"⟩ := by decide +kernel
  have hcheck : Allowance.check explainedSecond 2 "m" = .allowed none := by decide +kernel
  refine ⟨⟨_, hline, by simp [Names], by simp⟩, hcheck, ?_⟩
  intro rule v hname hrequired hv
  rw [← hname, ← hv] at hcheck
  rw [settle_of_check_eq_bare hcheck, if_pos hrequired]

end Analyzer

/-- Unless it decides otherwise, a rule asks for a reason if it was made to report errors. -/
def Rule.AsksByDefault (rule : Rule) : Prop :=
  rule.requiresReason = (rule.defaultSeverity == .error)

theorem PreferObserver.Settings.severity_of_take {s t : Settings} {c : RuleConfig} {key : String}
    (h : s.take c key = .ok t) : t.severity = s.severity := by
  unfold take at h
  cases hoption : c.expectBool ruleName key with
  | error e =>
    rw [hoption] at h
    cases h
  | ok value =>
    rw [hoption] at h
    cases value with
    | none =>
      cases h
      rfl
    | some allowNext =>
      cases h
      rfl

theorem PreferObserver.Settings.severity_of_takes {keys : List String} {s t : Settings}
    {c : RuleConfig} (h : keys.foldlM (fun s key => s.take c key) s = .ok t) :
    t.severity = s.severity := by
  induction keys generalizing s with
  | nil =>
    cases h
    rfl
  | cons key keys ih =>
    rw [List.foldlM_cons] at h
    obtain ⟨next, hnext, hrest⟩ := Traversal.bind_eq_ok_iff.mp h
    rw [ih hrest, severity_of_take hnext]

theorem PreferObserver.Settings.severity_of_ofConfig {c : RuleConfig} {s : Settings}
    (h : ofConfig c = .ok s) : s.severity = c.severity.getD .error := by
  unfold ofConfig at h
  split at h
  · cases h
  · obtain ⟨taken, htaken, hs⟩ := Traversal.bind_eq_ok_iff.mp h
    cases hs
    simp only [severity_of_takes htaken]

theorem Catalogue.exists_settings_of_ruleFromConfig {name : String} {c : RuleConfig} {rule : Rule}
    (h : ruleFromConfig name c = .ok (some rule)) :
    ∃ s : PreferObserver.Settings, rule = PreferObserver.rule s ∧ rule.name = name ∧
      s.severity = c.severity.getD .error := by
  unfold ruleFromConfig at h
  split at h
  · rename_i hname
    cases hsettings : PreferObserver.Settings.ofConfig c with
    | error e =>
      rw [hsettings] at h
      cases h
    | ok s =>
      rw [hsettings] at h
      cases h
      exact ⟨s, rfl, hname.symm, PreferObserver.Settings.severity_of_ofConfig hsettings⟩
  · cases h

/-- The rules that a configuration sets up are made with the severity that it sets for them. -/
theorem Catalogue.exists_settings_of_mem {config : Config} {rules : List Rule}
    (h : rulesFromConfig config = .ok rules) {rule : Rule} (hrule : rule ∈ rules) :
    ∃ s : PreferObserver.Settings, rule = PreferObserver.rule s ∧
      s.severity = (config.ruleSeverity? rule.name).getD .error := by
  obtain ⟨made, hmade, hrules⟩ := Traversal.bind_eq_ok_iff.mp h
  cases hrules
  obtain ⟨_, hmem, rfl⟩ := List.mem_filterMap.mp hrule
  obtain ⟨name, -, hname⟩ :=
    Traversal.exists_of_mem_right (Traversal.mapM_eq_ok_iff.mp hmade) hmem
  obtain ⟨s, hs, rfl, hseverity⟩ := exists_settings_of_ruleFromConfig hname
  refine ⟨s, hs, ?_⟩
  rw [hseverity, Config.ruleSeverity?]
  cases config.rule? rule.name <;> rfl

namespace Analyzer

open Directive

/-- What a directive without a reason is to make of a finding, going by the severity with which the
finding is reported. -/
structure FollowsSeverity (rule : Rule) (v : Violation) (outcome : Option Violation) : Prop where
  warned : v.severity = .error → ∃ w, outcome = some w ∧ LacksReason rule v w
  dropped : v.severity ≠ .error → outcome = none

theorem followsSeverity_iff {rule : Rule} {v : Violation} {asks : Bool} :
    FollowsSeverity rule v (if asks then some (missingReason rule v.location) else none) ↔
      (v.severity = .error ↔ asks = true) := by
  cases asks with
  | true =>
    have hlacks : LacksReason rule v (missingReason rule v.location) := lacksReason_iff.mpr rfl
    refine ⟨fun h => ?_, fun h => ⟨fun _ => ⟨_, rfl, hlacks⟩, fun hne => absurd (h.mpr rfl) hne⟩⟩
    have herror : v.severity = .error := by
      by_contra hne
      cases h.dropped hne
    simp [herror]
  | false =>
    refine ⟨fun h => ?_, fun h => ⟨fun herror => ?_, fun _ => rfl⟩⟩
    · have hne : v.severity ≠ .error := by
        intro herror
        obtain ⟨w, hw, -⟩ := h.warned herror
        cases hw
      simp [hne]
    · cases h.mp herror

theorem not_warning_le_iff {s : Severity} : ¬ Severity.warning ≤ s ↔ s = .info := by
  cases s <;> decide

theorem settle_of_governs_bare {rule : Rule} {text : String} {v : Violation} {d : Directive}
    (hd : Governs text v.location.line rule.name d) (hbare : d.reason = none) :
    settle rule text v =
      if rule.requiresReason then some (missingReason rule v.location) else none := by
  apply settle_of_check_eq_bare
  rw [Allowance.check_eq_allowed_of_governs hd, hbare]

/-- Whatever the configuration says, a rule made from it reports with the severity it was made
with. -/
theorem severity_of_mem_findingsOf {config : Config} {rules : List Rule}
    (h : Catalogue.rulesFromConfig config = .ok rules) {rule : Rule} (hrule : rule ∈ rules)
    {path : Path} {file : SourceFile} {v : Violation} (hv : v ∈ findingsOf config path file rule) :
    v.severity = rule.defaultSeverity := by
  obtain ⟨s, rfl, hseverity⟩ := Catalogue.exists_settings_of_mem h hrule
  obtain ⟨raw, hraw, rfl⟩ := List.mem_map.mp hv
  obtain ⟨finding, -, rfl⟩ := List.mem_map.mp hraw
  change (config.ruleSeverity? _).getD s.severity = s.severity
  rw [hseverity]
  cases config.ruleSeverity? (PreferObserver.rule s).name <;> rfl

/-- A finding that is allowed without a reason meets what its reported severity calls for exactly if
that severity and the one its rule was made with agree on being an error. Else an error goes without
a word, or a warning takes the place of something that is none. Rules made from the configuration
that they run under always agree. -/
theorem reason_asked_as_reported_iff {rule : Rule} (hrule : rule.AsksByDefault) {config : Config}
    {path : Path} {file : SourceFile} {v : Violation} (hv : v ∈ findingsOf config path file rule)
    {d : Directive} (hd : Governs file.text v.location.line rule.name d) (hbare : d.reason = none) :
    (FollowsSeverity rule v (settle rule file.text v) ↔
      (v.severity = .error ↔ rule.defaultSeverity = .error)) ∧
    ((∃ w, settle rule file.text v = some w ∧ ¬ w.severity ≤ v.severity) ↔
      v.severity = .info ∧ rule.defaultSeverity = .error) ∧
    (v.severity = .error ∧ settle rule file.text v = none ↔
      v.severity = .error ∧ rule.defaultSeverity ≠ .error) ∧
    ∀ rules, Catalogue.rulesFromConfig config = .ok rules → rule ∈ rules →
      FollowsSeverity rule v (settle rule file.text v) := by
  have hasks : rule.requiresReason = true ↔ rule.defaultSeverity = .error := by
    rw [hrule, beq_iff_eq]
  have hfollows : FollowsSeverity rule v (settle rule file.text v) ↔
      (v.severity = .error ↔ rule.defaultSeverity = .error) := by
    rw [settle_of_governs_bare hd hbare, followsSeverity_iff, hasks]
  refine ⟨hfollows, ?_, ?_, ?_⟩
  · rw [settle_of_governs_bare hd hbare, ← hasks, ← not_warning_le_iff]
    cases rule.requiresReason <;> simp [missingReason]
  · rw [settle_of_governs_bare hd hbare, ne_eq, ← hasks]
    cases rule.requiresReason <;> simp
  · intro rules hrules hmem
    rw [hfollows, severity_of_mem_findingsOf hrules hmem hv]

/-- A file with a subscription that two rules may pass over without saying why. -/
def excused : SourceFile where
  path := ⟨"test.ts"⟩
  dialect := .typeScript
  text := "s.subscribe(a, b); // rxlint: allow(m1, m2)\n"
  tree := .mk { kind := .program, stop := 44 } [
    Oracle.subscription 0, .mk { kind := .comment, start := 19, stop := 43 } []]

def errorMarker : Marker := { name := "m1", code := "T1", text := "subscribe" }

def warningMarker : Marker where
  name := "m2"
  code := "T2"
  text := "subscribe"
  severity := .warning

theorem excused_governed {rule : String} (h : rule = "m1" ∨ rule = "m2") :
    Governs excused.text 1 rule ⟨["m1", "m2"], none⟩ := by
  have hline : onLine? excused.text 1 = some ⟨["m1", "m2"], none⟩ := by decide +kernel
  refine .same ?_ hline ?_
  · intro e he
    cases he
  · rcases h with rfl | rfl <;> simp [Names]

theorem excused_error_warned :
    errorMarker.rule.AsksByDefault ∧
      errorMarker.violation ⟨"test.ts"⟩ 1 ∈
        findingsOf {} ⟨"test.ts"⟩ excused errorMarker.rule ∧
      Governs excused.text 1 errorMarker.rule.name ⟨["m1", "m2"], none⟩ ∧
      FollowsSeverity errorMarker.rule (errorMarker.violation ⟨"test.ts"⟩ 1)
        (settle errorMarker.rule excused.text (errorMarker.violation ⟨"test.ts"⟩ 1)) := by
  have hfound : errorMarker.violation ⟨"test.ts"⟩ 1 ∈
      findingsOf {} ⟨"test.ts"⟩ excused errorMarker.rule := by
    decide +kernel
  have hgoverns : Governs excused.text 1 errorMarker.rule.name ⟨["m1", "m2"], none⟩ :=
    excused_governed (Or.inl rfl)
  have hasks : errorMarker.rule.AsksByDefault := rfl
  exact ⟨hasks, hfound, hgoverns,
    (reason_asked_as_reported_iff hasks hfound hgoverns rfl).1.mpr (iff_of_true rfl rfl)⟩

def swapped : Config where
  rules := [("m1", { severity := some .info }), ("m2", { severity := some .error })]

/-- The note becomes a warning, and the error is passed over. -/
theorem swapped_severities_not_followed :
    (∃ v ∈ findingsOf swapped ⟨"test.ts"⟩ excused errorMarker.rule, v.severity = .info ∧
      Governs excused.text v.location.line errorMarker.rule.name ⟨["m1", "m2"], none⟩ ∧
      ∃ w, settle errorMarker.rule excused.text v = some w ∧ w.severity = .warning) ∧
    ∃ v ∈ findingsOf swapped ⟨"test.ts"⟩ excused warningMarker.rule, v.severity = .error ∧
      Governs excused.text v.location.line warningMarker.rule.name ⟨["m1", "m2"], none⟩ ∧
      settle warningMarker.rule excused.text v = none := by
  have hnote : Governs excused.text 1 errorMarker.rule.name ⟨["m1", "m2"], none⟩ :=
    excused_governed (Or.inl rfl)
  have herror : Governs excused.text 1 warningMarker.rule.name ⟨["m1", "m2"], none⟩ :=
    excused_governed (Or.inr rfl)
  constructor
  · exact ⟨{ errorMarker.violation ⟨"test.ts"⟩ 1 with severity := .info }, by decide +kernel, rfl,
      hnote, _, settle_of_governs_bare hnote rfl, rfl⟩
  · exact ⟨{ warningMarker.violation ⟨"test.ts"⟩ 1 with severity := .error }, by decide +kernel,
      rfl, herror, settle_of_governs_bare herror rfl⟩

end Analyzer

end ObserverLint
