import Mathlib.Data.List.Forall2
import ObserverLint.Analyzer

namespace ObserverLint

namespace Directive

def Names (d : Directive) (rule : String) : Prop := rule ∈ d.rules ∨ "all" ∈ d.rules

theorem covers_iff {d : Directive} {rule : String} : d.covers rule = true ↔ d.Names rule := by
  simp [covers, Names]

/-- Among the directives that name the rule, this one decides about a line: one on the line before
decides, and one on the line itself does if there is none before. -/
inductive Governs (text : String) (line : Nat) (rule : String) (d : Directive) : Prop
  | before : onLine? text (line - 1) = some d → d.Names rule → Governs text line rule d
  | same : (∀ e, onLine? text (line - 1) = some e → ¬ e.Names rule) →
      onLine? text line = some d → d.Names rule → Governs text line rule d

theorem Governs.names {text : String} {line : Nat} {rule : String} {d : Directive}
    (h : Governs text line rule d) : d.Names rule := by
  cases h with
  | before _ hnames => exact hnames
  | same _ _ hnames => exact hnames

/-- A directive on a line governs it, unless one that names the rule comes before. -/
theorem before_or_governs {text : String} {line : Nat} {rule : String} {d : Directive}
    (hline : onLine? text line = some d) (hnames : d.Names rule) :
    (∃ e, onLine? text (line - 1) = some e ∧ e.Names rule) ∨ Governs text line rule d := by
  by_cases hbefore : ∃ e, onLine? text (line - 1) = some e ∧ e.Names rule
  · exact Or.inl hbefore
  · exact Or.inr (.same (fun e he hnamed => hbefore ⟨e, he, hnamed⟩) hline hnames)

def SameFor (rule text other : String) : Prop :=
  ∀ line d, d.Names rule → (onLine? text line = some d ↔ onLine? other line = some d)

theorem SameFor.symm {rule text other : String} (h : SameFor rule text other) :
    SameFor rule other text :=
  fun line d hd => (h line d hd).symm

theorem SameFor.governs {rule text other : String} (h : SameFor rule text other) {line : Nat}
    {d : Directive} (hd : Governs text line rule d) : Governs other line rule d := by
  cases hd with
  | before hline hnames => exact .before ((h _ d hnames).mp hline) hnames
  | same hnone hline hnames =>
    refine .same ?_ ((h _ d hnames).mp hline) hnames
    intro e he hnamed
    exact hnone e ((h _ e hnamed).mpr he) hnamed

/-- Directives that do not name the rule decide nothing about it. -/
theorem SameFor.governs_iff {rule text other : String} (h : SameFor rule text other) {line : Nat}
    {d : Directive} : Governs text line rule d ↔ Governs other line rule d :=
  ⟨h.governs, h.symm.governs⟩

end Directive

namespace Allowance

open Directive

variable {text rule : String} {line : Nat}

theorem find?_covers_eq (text : String) (line : Nat) (rule : String) :
    ([line - 1, line].filterMap (onLine? text)).find? (·.covers rule) =
      ((onLine? text (line - 1)).filter (·.covers rule)).or
        ((onLine? text line).filter (·.covers rule)) := by
  cases hbefore : onLine? text (line - 1) with
  | none => cases hsame : onLine? text line <;> simp [hbefore, hsame, Option.filter]
  | some d =>
    cases hcovers : d.covers rule <;> cases hsame : onLine? text line <;>
      simp [hbefore, hsame, hcovers, Option.filter]

/-- The lookup finds the directive that governs the line. -/
theorem find?_covers_eq_some_iff {d : Directive} :
    ([line - 1, line].filterMap (onLine? text)).find? (·.covers rule) = some d ↔
      Governs text line rule d := by
  rw [find?_covers_eq, Option.or_eq_some_iff, Option.filter_eq_some_iff, Option.filter_eq_some_iff,
    Option.filter_eq_none_iff]
  constructor
  · rintro (⟨hline, hcovers⟩ | ⟨hnone, hline, hcovers⟩)
    · exact .before hline (covers_iff.mp hcovers)
    · exact .same (fun e he hnames => hnone e he (covers_iff.mpr hnames)) hline
        (covers_iff.mp hcovers)
  · rintro (⟨hline, hnames⟩ | ⟨hnone, hline, hnames⟩)
    · exact Or.inl ⟨hline, covers_iff.mpr hnames⟩
    · exact Or.inr ⟨fun e he hcovers => hnone e he (covers_iff.mp hcovers), hline,
        covers_iff.mpr hnames⟩

theorem check_eq_allowed_of_governs {d : Directive} (h : Governs text line rule d) :
    check text line rule = .allowed d.reason := by
  rw [check, find?_covers_eq_some_iff.mpr h]

theorem check_eq_denied_of_not_governs (h : ∀ d, ¬ Governs text line rule d) :
    check text line rule = .denied := by
  rw [check]
  split
  · rename_i d hfound
    exact absurd (find?_covers_eq_some_iff.mp hfound) (h d)
  · rfl

end Allowance

namespace Analyzer

open Directive

/-- `w` warns, where `v` was found, that the directive there lacks the reason its rule asks for. -/
structure LacksReason (rule : Rule) (v w : Violation) : Prop where
  severity : w.severity = .warning
  location : w.location = v.location
  code : w.code = rule.code
  name : w.rule = rule.name
  message : w.message = s!"Allow directive for '{rule.name}' is missing required reason"
  suggestion : w.suggestion =
    some ⟨"Add reason=\"...\" to explain why this exception is necessary"⟩
  messageId : w.messageId = none
  docRef : w.docRef = none

theorem lacksReason_iff {rule : Rule} {v w : Violation} :
    LacksReason rule v w ↔ w = missingReason rule v.location := by
  constructor
  · rintro ⟨hseverity, hlocation, hcode, hname, hmessage, hsuggestion, hid, hdoc⟩
    rcases w with ⟨code, name, severity, location, message, id, suggestion, doc⟩
    simp only at hseverity hlocation hcode hname hmessage hsuggestion hid hdoc
    simp only [missingReason, hseverity, hlocation, hcode, hname, hmessage, hsuggestion, hid, hdoc]
  · rintro rfl
    exact ⟨rfl, rfl, rfl, rfl, rfl, rfl, rfl, rfl⟩

inductive Settles (rule : Rule) (text : String) (v : Violation) : Option Violation → Prop
  /-- Without a directive it stays as it is. -/
  | kept : (∀ d, ¬ Governs text v.location.line rule.name d) → Settles rule text v (some v)
  /-- A directive with a reason drops it. -/
  | reasoned {d : Directive} : Governs text v.location.line rule.name d → d.reason ≠ none →
      Settles rule text v none
  /-- A directive without a reason drops it if the rule asks for none. -/
  | excused {d : Directive} : Governs text v.location.line rule.name d → d.reason = none →
      rule.requiresReason = false → Settles rule text v none
  /-- Otherwise a warning takes its place. -/
  | replaced {d : Directive} {w : Violation} : Governs text v.location.line rule.name d →
      d.reason = none → rule.requiresReason = true → LacksReason rule v w →
      Settles rule text v (some w)

section Settlement

variable {rule : Rule} {text : String} {v : Violation} {outcome : Option Violation}

theorem settle_eq_of_settles (h : Settles rule text v outcome) : settle rule text v = outcome := by
  cases h with
  | kept hnone => rw [settle, Allowance.check_eq_denied_of_not_governs hnone]
  | reasoned hd hreason =>
    obtain ⟨reason, hsome⟩ := Option.ne_none_iff_exists'.mp hreason
    rw [settle, Allowance.check_eq_allowed_of_governs hd, hsome]
  | excused hd hreason hnot =>
    rw [settle, Allowance.check_eq_allowed_of_governs hd, hreason]
    simp [hnot]
  | replaced hd hreason hrequired hlacks =>
    rw [settle, Allowance.check_eq_allowed_of_governs hd, hreason, lacksReason_iff.mp hlacks]
    simp [hrequired]

theorem exists_settles (rule : Rule) (text : String) (v : Violation) :
    ∃ outcome, Settles rule text v outcome := by
  by_cases h : ∃ d, Governs text v.location.line rule.name d
  · obtain ⟨d, hd⟩ := h
    cases hreason : d.reason with
    | some reason => exact ⟨none, .reasoned hd (by simp [hreason])⟩
    | none =>
      cases hrequired : rule.requiresReason with
      | false => exact ⟨none, .excused hd hreason hrequired⟩
      | true => exact ⟨_, .replaced hd hreason hrequired (lacksReason_iff.mpr rfl)⟩
  · exact ⟨some v, .kept (not_exists.mp h)⟩

theorem settles_iff : Settles rule text v outcome ↔ settle rule text v = outcome := by
  constructor
  · exact settle_eq_of_settles
  · intro h
    obtain ⟨other, hother⟩ := exists_settles rule text v
    rw [← h, settle_eq_of_settles hother]
    exact hother

theorem Settles.location {w : Violation} (h : Settles rule text v (some w)) :
    w.location = v.location := by
  cases h with
  | kept _ => rfl
  | replaced _ _ _ hlacks => exact hlacks.location

theorem Settles.of_sameFor {other : String} (hsame : SameFor rule.name text other)
    (h : Settles rule text v outcome) : Settles rule other v outcome := by
  cases h with
  | kept hnone => exact .kept fun d hd => hnone d (hsame.governs_iff.mpr hd)
  | reasoned hd hreason => exact .reasoned (hsame.governs hd) hreason
  | excused hd hreason hnot => exact .excused (hsame.governs hd) hreason hnot
  | replaced hd hreason hrequired hlacks =>
    exact .replaced (hsame.governs hd) hreason hrequired hlacks

end Settlement

def Enables (config : Config) (rule : String) : Prop :=
  ∀ table, config.rule? rule = some table → table.enabled ≠ some false

theorem enables_iff {config : Config} {rule : String} :
    Enables config rule ↔ config.isRuleEnabled rule = true := by
  unfold Enables Config.isRuleEnabled
  cases config.rule? rule with
  | none => simp
  | some table => cases h : table.enabled <;> simp [h]

def findingsOf (config : Config) (path : Path) (file : SourceFile) (rule : Rule) :
    List Violation :=
  (rule.check path file).map fun v =>
    { v with severity := (config.ruleSeverity? rule.name).getD v.severity }

theorem reportOf_eq (config : Config) (path : Path) (file : SourceFile) (rule : Rule) :
    reportOf config path file rule =
      ((findingsOf config path file rule).map (settle rule file.text)).filterMap id := by
  have hfindings : findingsOf config path file rule =
      (rule.check path file).map (withSeverity (config.ruleSeverity? rule.name)) := by
    apply List.map_congr_left
    intro v _
    cases config.ruleSeverity? rule.name <;> rfl
  rw [List.filterMap_map, Function.id_comp, hfindings, reportOf]

theorem map_location_findingsOf (config : Config) (path : Path) (file : SourceFile) (rule : Rule) :
    (findingsOf config path file rule).map Violation.location =
      (rule.check path file).map Violation.location := by
  rw [findingsOf, List.map_map]
  rfl

inductive Block (config : Config) (path : Path) (file : SourceFile) (rule : Rule) :
    List Violation → Prop
  | disabled : ¬ Enables config rule.name → Block config path file rule []
  | enabled {outcomes : List (Option Violation)} : Enables config rule.name →
      List.Forall₂ (Settles rule file.text) (findingsOf config path file rule) outcomes →
      Block config path file rule (outcomes.filterMap id)

/-- Where a relation is the graph of a function, lists are related by mapping the function. -/
theorem forall₂_iff_map_eq {α β : Type} {relation : α → β → Prop} {f : α → β}
    (h : ∀ x y, relation x y ↔ f x = y) {xs : List α} {ys : List β} :
    List.Forall₂ relation xs ys ↔ xs.map f = ys := by
  obtain rfl : relation = fun x y => f x = y := by
    funext x y
    exact propext (h x y)
  rw [← List.forall₂_map_left_iff, List.forall₂_eq_eq_eq]

theorem forall₂_settles_iff {rule : Rule} {text : String} {vs : List Violation}
    {outcomes : List (Option Violation)} :
    List.Forall₂ (Settles rule text) vs outcomes ↔ vs.map (settle rule text) = outcomes :=
  forall₂_iff_map_eq fun v _ => @settles_iff rule text v _

section Blocks

variable {config : Config} {path : Path} {file : SourceFile} {rule : Rule} {block : List Violation}

theorem block_iff :
    Block config path file rule block ↔
      (if config.isRuleEnabled rule.name then reportOf config path file rule else []) = block := by
  constructor
  · intro h
    cases h with
    | disabled hnot =>
      rw [if_neg]
      exact fun henabled => hnot (enables_iff.mpr henabled)
    | enabled henabled hsettled =>
      rw [if_pos (enables_iff.mp henabled), reportOf_eq, forall₂_settles_iff.mp hsettled]
  · rintro rfl
    split
    · rename_i henabled
      rw [reportOf_eq]
      exact .enabled (enables_iff.mpr henabled) (forall₂_settles_iff.mpr rfl)
    · rename_i hnot
      exact .disabled fun henabled => hnot (enables_iff.mp henabled)

theorem locations_sublist_of_settles {text : String} {vs : List Violation}
    {outcomes : List (Option Violation)} (h : List.Forall₂ (Settles rule text) vs outcomes) :
    ((outcomes.filterMap id).map Violation.location).Sublist (vs.map Violation.location) := by
  induction h with
  | nil => exact .slnil
  | @cons v outcome vs outcomes hv _ ih =>
    cases outcome with
    | none => exact ih.cons _
    | some w =>
      have hw := hv.location
      simp only [List.filterMap_cons, id_eq, List.map_cons, hw]
      exact ih.cons_cons _

/-- A block reports at places where its rule has findings, in their order and each at most once. -/
theorem Block.locations_sublist (h : Block config path file rule block) :
    (block.map Violation.location).Sublist ((rule.check path file).map Violation.location) := by
  cases h with
  | disabled _ => exact List.nil_sublist _
  | enabled _ hsettled =>
    rw [← map_location_findingsOf config]
    exact locations_sublist_of_settles hsettled

end Blocks

/-- What a text holds: nothing if its path tells no dialect, and otherwise one block for each rule.
A text that does not parse counts only if that is tolerated. -/
inductive Reported (a : Analyzer) (grammar : Grammar) (base path : Path) (text : String) :
    List Violation → Prop
  | skipped : Dialect.ofPath? path = none → Reported a grammar base path text []
  | read {dialect : Dialect} {blocks : List (List Violation)} :
      Dialect.ofPath? path = some dialect →
      ¬ ((SourceFile.parse grammar path dialect text).hasErrors = true ∧
        a.failOnParseError = true) →
      List.Forall₂ (Block a.config (path.relativeTo base)
        (SourceFile.parse grammar path dialect text)) a.rules blocks →
      Reported a grammar base path text blocks.flatten

theorem forall₂_block_iff {config : Config} {path : Path} {file : SourceFile} {rules : List Rule}
    {blocks : List (List Violation)} :
    List.Forall₂ (Block config path file) rules blocks ↔
      (rules.map fun rule =>
        if config.isRuleEnabled rule.name then reportOf config path file rule else []) =
        blocks :=
  forall₂_iff_map_eq fun rule _ => @block_iff config path file rule _

theorem reports_eq_flatten (a : Analyzer) (path : Path) (file : SourceFile) :
    a.reports path file = (a.rules.map fun rule =>
      if a.config.isRuleEnabled rule.name then reportOf a.config path file rule
      else []).flatten := by
  rw [reports]
  induction a.rules with
  | nil => rfl
  | cons rule rules ih =>
    rw [List.filter_cons, List.map_cons, List.flatten_cons, ← ih]
    split <;> rfl

theorem analyzeSource_eq_ok_iff {a : Analyzer} {grammar : Grammar} {base path : Path}
    {text : String} {output : List Violation} :
    a.analyzeSource grammar base path text = .ok output ↔
      Reported a grammar base path text output := by
  constructor
  · intro h
    simp only [analyzeSource] at h
    split at h
    · rename_i hdialect
      cases h
      exact .skipped hdialect
    · rename_i dialect hdialect
      split at h
      · cases h
      · rename_i hparsed
        cases h
        rw [reports_eq_flatten]
        exact .read hdialect (by simpa using hparsed) (forall₂_block_iff.mpr rfl)
  · intro h
    cases h with
    | skipped hdialect => simp only [analyzeSource, hdialect]
    | read hdialect hparsed hblocks =>
      simp only [analyzeSource, hdialect]
      rw [if_neg (by simpa using hparsed), reports_eq_flatten, forall₂_block_iff.mp hblocks]

/-- The report on a text is made of one block for each rule, each of them settled finding by
finding. So a block reports only where its rule has findings, and directives that name neither the
rule nor all rules change nothing. -/
theorem analyzeSource_reports_settled_blocks (a : Analyzer) (grammar : Grammar) (base path : Path)
    (text : String) :
    (∀ output, a.analyzeSource grammar base path text = .ok output ↔
      Reported a grammar base path text output) ∧
    (∀ rule file block, Block a.config (path.relativeTo base) file rule block →
      (block.map Violation.location).Sublist
        ((rule.check (path.relativeTo base) file).map Violation.location)) ∧
    ∀ rule other, SameFor rule.name text other →
      ∀ v outcome, Settles rule text v outcome ↔ Settles rule other v outcome := by
  refine ⟨fun _ => analyzeSource_eq_ok_iff, fun _ _ _ => Block.locations_sublist, ?_⟩
  intro rule other hsame v outcome
  exact ⟨.of_sameFor hsame, .of_sameFor hsame.symm⟩

end Analyzer

end ObserverLint
