import Mathlib.Data.List.Forall2
import ObserverLint.Proofs.Discovery
import ObserverLint.Proofs.Exclusion
import ObserverLint.Proofs.Settlement
import ObserverLint.Rules.PreferObserver

namespace ObserverLint

namespace Sorting

section Comparisons

variable {α : Type} {cmp : α → α → Ordering} [Std.TransCmp cmp]

theorem isLE_trans (a b c : α) (hab : (cmp a b).isLE = true) (hbc : (cmp b c).isLE = true) :
    (cmp a c).isLE = true :=
  Std.TransCmp.isLE_trans hab hbc

theorem isLE_total (a b : α) : ((cmp a b).isLE || (cmp b a).isLE) = true := by
  have hswap : cmp b a = (cmp a b).swap := Std.OrientedCmp.eq_swap
  rw [hswap]
  cases cmp a b <;> rfl

end Comparisons

variable {α : Type} {le : α → α → Bool}
  (trans : ∀ a b c, le a b = true → le b c = true → le a c = true)
  (total : ∀ a b, (le a b || le b a) = true)

include trans total

/-- The first of a list goes right before those that it does not come after. -/
theorem mergeSort_cons_eq (a : α) (l : List α) :
    (a :: l).mergeSort le =
      (l.mergeSort le).filter (fun b => !le a b) ++ a :: (l.mergeSort le).filter (le a) := by
  obtain ⟨before, after, hsorted, hrest, hbefore⟩ := List.mergeSort_cons trans total a l
  have hpairwise := List.pairwise_mergeSort trans total (a :: l)
  rw [hsorted] at hpairwise
  have hafter : ∀ b ∈ after, le a b = true := fun _ =>
    List.rel_of_pairwise_cons (List.pairwise_append.mp hpairwise).2.1
  have hkept : before.filter (fun b => !le a b) = before := List.filter_eq_self.mpr hbefore
  have hdropped : after.filter (fun b => !le a b) = [] :=
    List.filter_eq_nil_iff.mpr fun b hb => by simp [hafter b hb]
  have hnone : before.filter (le a) = [] :=
    List.filter_eq_nil_iff.mpr fun b hb => by simpa using hbefore b hb
  have hall : after.filter (le a) = after := List.filter_eq_self.mpr hafter
  rw [hsorted, hrest, List.filter_append, List.filter_append, hkept, hdropped, hnone, hall,
    List.append_nil, List.nil_append]

theorem mergeSort_append {xs ys : List α} (h : ∀ x ∈ xs, ∀ y ∈ ys, le x y = true) :
    (xs ++ ys).mergeSort le = xs.mergeSort le ++ ys.mergeSort le := by
  induction xs with
  | nil => simp
  | cons a xs ih =>
    obtain ⟨ha, hxs⟩ := List.forall_mem_cons.mp h
    have hdropped : (ys.mergeSort le).filter (fun b => !le a b) = [] :=
      List.filter_eq_nil_iff.mpr fun b hb => by simp [ha b (List.mem_mergeSort.mp hb)]
    have hall : (ys.mergeSort le).filter (le a) = ys.mergeSort le :=
      List.filter_eq_self.mpr fun b hb => ha b (List.mem_mergeSort.mp hb)
    rw [List.cons_append, mergeSort_cons_eq trans total, mergeSort_cons_eq trans total, ih hxs,
      List.filter_append, List.filter_append, hdropped, hall, List.append_nil]
    simp

/-- Blocks that are in order among each other are sorted each for itself. -/
theorem mergeSort_flatten {blocks : List (List α)}
    (h : blocks.Pairwise fun xs ys => ∀ x ∈ xs, ∀ y ∈ ys, le x y = true) :
    blocks.flatten.mergeSort le = (blocks.map fun xs => xs.mergeSort le).flatten := by
  induction h with
  | nil => simp
  | @cons xs blocks hxs _ ih =>
    have hrest : ∀ x ∈ xs, ∀ y ∈ blocks.flatten, le x y = true := by
      intro x hx y hy
      obtain ⟨ys, hys, hmem⟩ := List.mem_flatten.mp hy
      exact hxs ys hys x hx y hmem
    rw [List.flatten_cons, mergeSort_append trans total hrest, ih, List.map_cons,
      List.flatten_cons]

end Sorting

namespace Violation

instance : Std.TransCmp order := by
  have hfile : Std.TransCmp fun v w : Violation => v.location.file.order w.location.file :=
    Path.transCmp_of_map fun v : Violation => v.location.file
  have h : order = compareLex (fun v w => v.location.file.order w.location.file)
      (compareLex (compareOn (·.location.line)) (compareOn (·.location.column))) := rfl
  rw [h]
  infer_instance

theorem precedes_trans (u v w : Violation) :
    u.precedes v = true → v.precedes w = true → u.precedes w = true :=
  Sorting.isLE_trans u v w

theorem precedes_total (v w : Violation) : (v.precedes w || w.precedes v) = true :=
  Sorting.isLE_total v w

def PositionLE (v w : Violation) : Prop :=
  v.location.line < w.location.line ∨
    v.location.line = w.location.line ∧ v.location.column ≤ w.location.column

theorem precedes_iff_of_same_file {v w : Violation} (h : v.location.file = w.location.file) :
    v.precedes w = true ↔ PositionLE v w := by
  have hfile : v.location.file.order w.location.file = .eq := by
    rw [h, Path.order_eq_eq_iff]
  rw [precedes, order, hfile, PositionLE, Ordering.then, Ordering.isLE_then_iff_or,
    Nat.compare_eq_lt, Nat.compare_eq_eq, Nat.isLE_compare]

def isAt (line column : Nat) (v : Violation) : Bool :=
  v.location.line = line ∧ v.location.column = column

/-- `ys` are the violations `xs` by line and column. Those at one position keep their order. -/
structure ByPosition (xs ys : List Violation) : Prop where
  perm : ys.Perm xs
  ordered : ys.Pairwise PositionLE
  stable : ∀ line column, ys.filter (isAt line column) = xs.filter (isAt line column)

theorem byPosition_mergeSort {xs : List Violation} {file : Path}
    (h : ∀ v ∈ xs, v.location.file = file) : ByPosition xs (xs.mergeSort precedes) := by
  have hperm := List.mergeSort_perm xs precedes
  refine ⟨hperm, ?_, ?_⟩
  · refine (List.pairwise_mergeSort precedes_trans precedes_total xs).imp_of_mem ?_
    intro v w hv hw hprecedes
    have hsame := (h v (hperm.subset hv)).trans (h w (hperm.subset hw)).symm
    exact (precedes_iff_of_same_file hsame).mp hprecedes
  · intro line column
    -- What stands at one position is in order already, so sorting keeps it as it is.
    have hkept : (xs.filter (isAt line column)).Sublist (xs.mergeSort precedes) := by
      refine List.sublist_mergeSort precedes_trans precedes_total ?_ List.filter_sublist
      refine List.pairwise_of_forall_mem_list ?_
      intro v hv w hw
      simp only [List.mem_filter, isAt, decide_eq_true_eq] at hv hw
      obtain ⟨hvmem, hvline, hvcolumn⟩ := hv
      obtain ⟨hwmem, hwline, hwcolumn⟩ := hw
      refine (precedes_iff_of_same_file ((h v hvmem).trans (h w hwmem).symm)).mpr (Or.inr ?_)
      exact ⟨hvline.trans hwline.symm, (hvcolumn.trans hwcolumn.symm).le⟩
    have hfiltered := hkept.filter (isAt line column)
    simp only [List.filter_filter, Bool.and_self] at hfiltered
    exact (hfiltered.eq_of_length (hperm.filter _).length_eq.symm).symm

end Violation

def Rule.LocatesAtPath (rule : Rule) : Prop :=
  ∀ path file, ∀ v ∈ rule.check path file, v.location.file = path

theorem PreferObserver.rule_locatesAtPath (settings : Settings) :
    (rule settings).LocatesAtPath := by
  intro path file v hv
  obtain ⟨finding, -, rfl⟩ := List.mem_map.mp hv
  rfl

namespace Analyzer

open Traversal

variable {a : Analyzer} {disk : Disk} {grammar : Grammar}

theorem Reported.location_file (hrules : ∀ rule ∈ a.rules, rule.LocatesAtPath) {base path : Path}
    {text : String} {output : List Violation} (h : Reported a grammar base path text output) :
    ∀ v ∈ output, v.location.file = path.relativeTo base := by
  cases h with
  | skipped _ => exact List.forall_mem_nil _
  | @read dialect blocks _ _ hblocks =>
    intro v hv
    obtain ⟨block, hblock, hmem⟩ := List.mem_flatten.mp hv
    obtain ⟨rule, hrule, hsettled⟩ := exists_of_mem_right hblocks hblock
    have hlocation := hsettled.locations_sublist.subset (List.mem_map_of_mem hmem)
    obtain ⟨w, hw, hsame⟩ := List.mem_map.mp hlocation
    rw [← hsame]
    exact hrules rule hrule _ _ w hw

structure InPathOrder (a : Analyzer) (disk : Disk) (found files : List Path) : Prop where
  mem_iff : ∀ p, p ∈ files ↔ p ∈ found ∧ a.Selected disk p
  ordered : files.Pairwise fun p q => p.order q = .lt

theorem selected_perm (a : Analyzer) (disk : Disk) (found : List Path) :
    (a.selected disk found).Perm
      (found.filter fun p => isSource disk p && !a.isExcluded (a.baseDir disk) p) :=
  List.mergeSort_perm _ _

theorem selected_pairwise (a : Analyzer) (disk : Disk) (found : List Path) :
    (a.selected disk found).Pairwise fun p q => (p.order q).isLE = true :=
  List.pairwise_mergeSort Sorting.isLE_trans Sorting.isLE_total _

theorem selected_nodup {found : List Path} (h : a.Walked found) :
    ((a.selected disk found).map Path.components).Nodup := by
  rw [((selected_perm a disk found).map _).nodup_iff]
  exact h.once.sublist (List.filter_sublist.map _)

theorem inPathOrder_selected {found : List Path} (h : a.Walked found) :
    InPathOrder a disk found (a.selected disk found) where
  mem_iff _ := mem_selected
  ordered := by
    have hdistinct := List.pairwise_map.mp (@selected_nodup a disk found h)
    refine ((selected_pairwise a disk found).and hdistinct).imp ?_
    rintro p q ⟨hle, hne⟩
    cases horder : p.order q with
    | lt => rfl
    | eq => exact absurd (Path.order_eq_eq_iff.mp horder) hne
    | gt => simp [horder] at hle

/-- The walk decides which files are there, and their paths decide about the order. -/
theorem selected_of_perm {found other : List Path} (h : a.Walked found)
    (hperm : other.Perm found) : a.selected disk other = a.selected disk found := by
  have hselected : (a.selected disk other).Perm (a.selected disk found) :=
    ((selected_perm a disk other).trans (hperm.filter _)).trans (selected_perm a disk found).symm
  refine List.Perm.eq_of_pairwise ?_ (selected_pairwise a disk other)
    (selected_pairwise a disk found) hselected
  intro p q hp hq hpq hqp
  have heq : p.order q = .eq := Std.OrientedCmp.isLE_antisymm hpq hqp
  refine List.inj_on_of_nodup_map (selected_nodup h) (hselected.subset hp) hq ?_
  exact Path.order_eq_eq_iff.mp heq

def Yields (a : Analyzer) (disk : Disk) (grammar : Grammar) (p : Path) (output : List Violation) :
    Prop :=
  ∃ text, disk.readText p = .ok text ∧
    a.analyzeSource grammar (a.baseDir disk) p text = .ok output

inductive Fails (a : Analyzer) (disk : Disk) (grammar : Grammar) (p : Path) : AnalysisError → Prop
  | unreadable {fault : FileFault} : disk.readText p = .error fault →
      Fails a disk grammar p (.unreadable fault)
  | refused {text : String} {e : AnalysisError} : disk.readText p = .ok text →
      a.analyzeSource grammar (a.baseDir disk) p text = .error e → Fails a disk grammar p e

theorem yields_iff {p : Path} {output : List Violation} :
    Yields a disk grammar p output ↔ a.analyzeFile disk grammar p = .ok output := by
  simp only [Yields, analyzeFile, bind_eq_ok_iff, mapError_eq_ok_iff]

theorem analyzeFound_of_one {found : List Path} {p : Path} {v : Violation}
    (hselected : a.selected disk found = [p]) (hfile : a.analyzeFile disk grammar p = .ok [v]) :
    a.analyzeFound disk grammar found = .ok ⟨[v], 1⟩ := by
  have hblocks : [p].mapM (a.analyzeFile disk grammar) = .ok [[v]] :=
    mapM_eq_ok_iff.mpr (.cons hfile .nil)
  have hsorted : Report.sort ⟨[v], 1⟩ = ⟨[v], 1⟩ := by rw [Report.sort, List.mergeSort_singleton]
  rw [analyzeFound, hselected, hblocks]
  exact congrArg Except.ok hsorted

theorem fails_iff {p : Path} {e : AnalysisError} :
    Fails a disk grammar p e ↔ a.analyzeFile disk grammar p = .error e := by
  rw [analyzeFile, bind_eq_error_iff, mapError_eq_error_iff]
  constructor
  · intro h
    cases h with
    | unreadable hread => exact Or.inl ⟨_, hread, rfl⟩
    | refused hread hrefused => exact Or.inr ⟨_, mapError_eq_ok_iff.mpr hread, hrefused⟩
  · rintro (⟨fault, hread, rfl⟩ | ⟨text, hread, hrefused⟩)
    · exact .unreadable hread
    · exact .refused (mapError_eq_ok_iff.mp hread) hrefused

theorem Yields.location_file (hrules : ∀ rule ∈ a.rules, rule.LocatesAtPath) {p : Path}
    {output : List Violation} (h : Yields a disk grammar p output) :
    ∀ v ∈ output, v.location.file = p.relativeTo (a.baseDir disk) := by
  obtain ⟨text, -, houtput⟩ := h
  exact (analyzeSource_eq_ok_iff.mp houtput).location_file hrules

inductive Answer (a : Analyzer) (disk : Disk) (grammar : Grammar) (files : List Path) :
    Except AnalysisError Report → Prop
  /-- All files are analysed, and each contributes what is found in it by position. -/
  | report {outputs sorted : List (List Violation)} :
      List.Forall₂ (Yields a disk grammar) files outputs →
      List.Forall₂ Violation.ByPosition outputs sorted →
      Answer a disk grammar files (.ok ⟨sorted.flatten, files.length⟩)
  /-- The first file that fails decides. -/
  | failure {before after : List Path} {p : Path} {e : AnalysisError} :
      files = before ++ p :: after → (∀ q ∈ before, ∃ output, Yields a disk grammar q output) →
      Fails a disk grammar p e → Answer a disk grammar files (.error e)

/-- What is found in a file comes, as a whole, before what is found in a later one. -/
theorem outputs_pairwise (hrules : ∀ rule ∈ a.rules, rule.LocatesAtPath) {files : List Path}
    {outputs : List (List Violation)}
    (hbase : ∀ p ∈ files, (a.baseDir disk).components <+: p.components)
    (hordered : files.Pairwise fun p q => p.order q = .lt)
    (h : List.Forall₂ (Yields a disk grammar) files outputs) :
    outputs.Pairwise fun xs ys => ∀ v ∈ xs, ∀ w ∈ ys, v.precedes w = true := by
  induction h with
  | nil => exact .nil
  | @cons p xs files outputs hp hrest ih =>
    obtain ⟨hpbase, hothers⟩ := List.forall_mem_cons.mp hbase
    obtain ⟨hfirst, hordered⟩ := List.pairwise_cons.mp hordered
    refine List.pairwise_cons.mpr ⟨?_, ih hothers hordered⟩
    intro ys hys v hv w hw
    obtain ⟨q, hq, hyields⟩ := exists_of_mem_right hrest hys
    have horder : v.location.file.order w.location.file = .lt := by
      rw [hp.location_file hrules v hv, hyields.location_file hrules w hw,
        Path.order_relativeTo hpbase (hothers q hq)]
      exact hfirst q hq
    rw [Violation.precedes, Violation.order, horder]
    rfl

/-- The last sorting stays inside the files. -/
theorem sort_outputs (hrules : ∀ rule ∈ a.rules, rule.LocatesAtPath) {files : List Path}
    {outputs : List (List Violation)}
    (hbase : ∀ p ∈ files, (a.baseDir disk).components <+: p.components)
    (hordered : files.Pairwise fun p q => p.order q = .lt)
    (h : List.Forall₂ (Yields a disk grammar) files outputs) :
    ∃ sorted, List.Forall₂ Violation.ByPosition outputs sorted ∧
      Report.sort ⟨outputs.flatten, files.length⟩ = ⟨sorted.flatten, files.length⟩ := by
  refine ⟨outputs.map fun xs => xs.mergeSort Violation.precedes, ?_, ?_⟩
  · rw [List.forall₂_map_right_iff, List.forall₂_same]
    intro output houtput
    obtain ⟨p, -, hp⟩ := exists_of_mem_right h houtput
    exact Violation.byPosition_mergeSort (hp.location_file hrules)
  · rw [Report.sort, Sorting.mergeSort_flatten Violation.precedes_trans Violation.precedes_total
      (outputs_pairwise hrules hbase hordered h)]

theorem analyzeFound_answer (hrules : ∀ rule ∈ a.rules, rule.LocatesAtPath) {found : List Path}
    (h : a.Walked found) :
    Answer a disk grammar (a.selected disk found) (a.analyzeFound disk grammar found) := by
  have hfiles : InPathOrder a disk found (a.selected disk found) := inPathOrder_selected h
  have hbase : ∀ p ∈ a.selected disk found, (a.baseDir disk).components <+: p.components := by
    intro p hp
    exact (baseDir_isPrefix a disk).trans (h.fromRoot p ((hfiles.mem_iff p).mp hp).1)
  cases hrun : (a.selected disk found).mapM (a.analyzeFile disk grammar) with
  | ok outputs =>
    have hyields : List.Forall₂ (Yields a disk grammar) (a.selected disk found) outputs :=
      (mapM_eq_ok_iff.mp hrun).imp fun _ _ => yields_iff.mpr
    obtain ⟨sorted, hsorted, hreport⟩ := sort_outputs hrules hbase hfiles.ordered hyields
    have hanswer : a.analyzeFound disk grammar found =
        .ok ⟨sorted.flatten, (a.selected disk found).length⟩ := by
      rw [analyzeFound, hrun, ← hreport]
      rfl
    rw [hanswer]
    exact .report hyields hsorted
  | error e =>
    obtain ⟨before, p, after, hsplit, hbefore, hp⟩ := mapM_eq_error_iff.mp hrun
    have hanswer : a.analyzeFound disk grammar found = .error e := by
      rw [analyzeFound, hrun]
      rfl
    rw [hanswer]
    refine .failure hsplit ?_ (fails_iff.mpr hp)
    intro q hq
    obtain ⟨output, houtput⟩ := hbefore q hq
    exact ⟨output, yields_iff.mpr houtput⟩

/-- In whatever order a walk yields what it finds, the answer is the same: what is found in the
selected files, file by file in the order of their paths and by position inside each, or else the
failure of the first of them that fails. The walk of an analysis is one of those meant. -/
theorem analysis_same_for_every_walk {a : Analyzer} {disk : Disk} {grammar : Grammar}
    (hrules : ∀ rule ∈ a.rules, rule.LocatesAtPath) :
    (∀ found, a.Walked found → ∃ files, InPathOrder a disk found files ∧
      ∀ other, other.Perm found → Answer a disk grammar files (a.analyzeFound disk grammar other) ∧
        a.analyzeFound disk grammar other = a.analyzeFound disk grammar found) ∧
    ∀ found, disk.top.Proper → a.discover disk = .ok found →
      a.Walked found ∧ a.analyze disk grammar = a.analyzeFound disk grammar found := by
  constructor
  · intro found h
    refine ⟨a.selected disk found, inPathOrder_selected h, ?_⟩
    intro other hperm
    have hsame : a.analyzeFound disk grammar other = a.analyzeFound disk grammar found := by
      rw [analyzeFound, analyzeFound, selected_of_perm h hperm]
    rw [hsame]
    exact ⟨analyzeFound_answer hrules h, rfl⟩
  · intro found hdisk hfound
    refine ⟨walked_of_discover hdisk hfound, ?_⟩
    rw [analyze, hfound]
    rfl

/-- A directory in which the order of the paths is not that of their texts. -/
def nested : Disk where
  top := .directory [("p", .directory [
    ("a-b.ts", .file { text := "" }), ("a", .directory [("x.ts", .file { text := "" })])])]
  current := ⟨"/p"⟩

def nestedFrom (root : Path) : Analyzer where
  root
  rules := [PreferObserver.rule {}]
  excludes := []
  config := {}
  failOnParseError := true

theorem nestedFrom_locates (root : Path) :
    ∀ rule ∈ (nestedFrom root).rules, rule.LocatesAtPath := by
  intro rule hrule
  obtain rfl := List.mem_singleton.mp hrule
  exact PreferObserver.rule_locatesAtPath {}

theorem nested_analysed_from_both_ends :
    (∀ root, ∀ rule ∈ (nestedFrom root).rules, rule.LocatesAtPath) ∧
    (nestedFrom ⟨"/p"⟩).Walked [⟨"/p/a-b.ts"⟩, ⟨"/p/a/x.ts"⟩] ∧
    (∃ files, InPathOrder (nestedFrom ⟨"/p"⟩) nested [⟨"/p/a-b.ts"⟩, ⟨"/p/a/x.ts"⟩] files ∧
      Answer (nestedFrom ⟨"/p"⟩) nested (fun _ _ => default) files
        ((nestedFrom ⟨"/p"⟩).analyzeFound nested (fun _ _ => default)
          [⟨"/p/a/x.ts"⟩, ⟨"/p/a-b.ts"⟩])) ∧
    nested.top.Proper ∧ (nestedFrom ⟨"/p/a/x.ts"⟩).discover nested = .ok [⟨"/p/a/x.ts"⟩] ∧
    (nestedFrom ⟨"/p/a/x.ts"⟩).Walked [⟨"/p/a/x.ts"⟩] ∧
    (nestedFrom ⟨"/p/a/x.ts"⟩).analyze nested (fun _ _ => default) =
      (nestedFrom ⟨"/p/a/x.ts"⟩).analyzeFound nested (fun _ _ => default) [⟨"/p/a/x.ts"⟩] := by
  have hwalked : (nestedFrom ⟨"/p"⟩).Walked [⟨"/p/a-b.ts"⟩, ⟨"/p/a/x.ts"⟩] :=
    ⟨by decide, by decide⟩
  have hproper : nested.top.Proper := by
    simp [nested, Entry.Proper, Entry.ProperAll, Path.IsName, Path.component?]
  have hfind : nested.find ⟨"/p/a/x.ts"⟩ = .ok _ :=
    (Disk.find_eq_ok_iff (by decide)).mpr ⟨⟨by decide, by decide⟩, rfl⟩
  have hfile : (nestedFrom ⟨"/p/a/x.ts"⟩).discover nested = .ok [⟨"/p/a/x.ts"⟩] :=
    discover_of_isFile hfind rfl
  obtain ⟨files, hfiles, hanswer⟩ :=
    (analysis_same_for_every_walk (nestedFrom_locates ⟨"/p"⟩)).1 _ hwalked
  refine ⟨nestedFrom_locates, hwalked, ⟨files, hfiles, (hanswer _ (.swap _ _ _)).1⟩, hproper, hfile,
    ?_⟩
  exact (analysis_same_for_every_walk (nestedFrom_locates ⟨"/p/a/x.ts"⟩)).2 _ hproper hfile

end Analyzer

end ObserverLint
