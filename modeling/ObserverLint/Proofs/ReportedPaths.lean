import Mathlib.Data.String.Basic
import ObserverLint.Proofs.Ascent
import ObserverLint.Proofs.ConfiguredRoot

namespace ObserverLint

open ObserverLint.Path Traversal

namespace Path

theorem segments_of_parts {p : Path} {body : List (List Char)} (h : p.parts = ⟨.root, body⟩) :
    segments p.text.toList = [] :: body := by
  have hp : p.isAbsolute = true := by
    rw [isAbsolute, h]
    rfl
  obtain ⟨other, -, hsegments, hparts⟩ := exists_of_isAbsolute hp
  rw [hsegments, (Parts.mk.inj (hparts.symm.trans h)).2]

theorem joinSegments_sublist {ss ts : List (List Char)} (h : ss.Sublist ts) :
    (joinSegments ss).Sublist (joinSegments ts) := by
  induction h with
  | slnil => exact .slnil
  | @cons ss ts t _ ih =>
    cases ts with
    | nil => exact ih.trans (List.nil_sublist _)
    | cons u ts => exact (ih.cons _).trans (List.sublist_append_right _ _)
  | @cons_cons ss ts s hss ih =>
    cases ts with
    | nil => rw [List.sublist_nil.mp hss]
    | cons u ts =>
      cases ss with
      | nil => exact List.sublist_append_left _ _
      | cons t ss => exact (ih.cons_cons _).append_left _

/-- The absolute path `q` is `p` without some segments that stand for nothing. -/
def Abridges (q p : Path) : Prop :=
  ∃ front blanks rest, p.parts = ⟨.root, front ++ (blanks ++ rest)⟩ ∧
    q.parts = ⟨.root, front ++ rest⟩ ∧ ∀ s ∈ blanks, component? s = none

namespace Abridges

variable {p q : Path}

theorem components_eq (h : q.Abridges p) : q.components = p.components := by
  obtain ⟨front, blanks, rest, hp, hq, hblanks⟩ := h
  rw [components, components, hp, hq, List.filterMap_append, List.filterMap_append,
    List.filterMap_append, List.filterMap_eq_nil_iff.mpr hblanks, List.nil_append]

theorem text_sublist (h : q.Abridges p) : q.text.toList.Sublist p.text.toList := by
  obtain ⟨front, blanks, rest, hp, hq, -⟩ := h
  rw [← joinSegments_segments q.text.toList, ← joinSegments_segments p.text.toList,
    segments_of_parts hp, segments_of_parts hq]
  apply joinSegments_sublist
  exact ((List.sublist_append_right blanks rest).append_left front).cons_cons []

end Abridges

/-- What is left of a path below a base, joined to the base, is the path again, except for segments
between the two that stand for nothing. -/
theorem abridges_join_relativeTo {p base : Path} {front blanks rest : List (List Char)}
    (hbase : base.isAbsolute = true) (hstem : base.stem = [] :: front)
    (hp : p.parts = ⟨.root, front ++ (blanks ++ rest)⟩)
    (hblanks : ∀ s ∈ blanks, component? s = none) (hne : rest ≠ [])
    (hrest : ∀ s ∈ rest, component? s ≠ none) : (base.join (p.relativeTo base)).Abridges p := by
  have hcomponents : base.components = .root :: (front ++ blanks).filterMap component? := by
    obtain ⟨other, hother, hcomponents⟩ := stem_of_isAbsolute hbase
    obtain rfl := (List.cons.inj (hother.symm.trans hstem)).2
    rw [hcomponents, List.filterMap_append, List.filterMap_eq_nil_iff.mpr hblanks, List.append_nil]
  have hrelative : p.relativeTo base = ofParts ⟨.none, rest⟩ :=
    relativeTo_of_parts (by rw [hp, List.append_assoc]) hcomponents hrest
  have hslash : ∀ s ∈ rest, '/' ∉ s := by
    intro s hs
    apply @no_slash_of_mem_body p
    rw [hp]
    exact List.mem_append_right _ (List.mem_append_right _ hs)
  have hsegments : segments (ofParts ⟨.none, rest⟩).text.toList = rest := by
    simp only [ofParts, String.toList_ofList, segments_joinSegments hne hslash]
  have hplain : (ofParts ⟨.none, rest⟩).isAbsolute = false := by
    rw [isAbsolute, parts_of_beginsPlain]
    · rfl
    · rw [hsegments]
      intro s hs
      exact hrest s (List.mem_of_mem_head? hs)
  refine ⟨front, blanks, rest, hp, parts_of_segments ?_ ?_, hblanks⟩
  · exact List.append_ne_nil_of_right_ne_nil _ hne
  · rw [hrelative, segments_join (text_ne_nil_of_isAbsolute hbase) hplain, hsegments,
      hstem, List.cons_append]

theorem abridges_under {p : Path} (hp : p.isAbsolute = true) {names : List Name} (h : names ≠ []) :
    (p.join ((p.under names).relativeTo p)).Abridges (p.under names) := by
  obtain ⟨front, hstem, -⟩ := stem_of_isAbsolute hp
  have hparts : (p.under names).parts = ⟨.root, front ++ ([] ++ nameSegments names)⟩ :=
    parts_under hp hstem h
  exact abridges_join_relativeTo hp hstem hparts (List.forall_mem_nil _)
    (mt List.map_eq_nil_iff.mp h) fun _ => component?_of_mem_nameSegments

theorem stem_ofParts_trimEnd {front : List (List Char)} (hslash : ∀ s ∈ front, '/' ∉ s) :
    (ofParts ⟨.root, trimEnd front⟩).stem = [] :: trimEnd front := by
  rcases List.eq_nil_or_concat' (trimEnd front) with hnil | ⟨start, last, hlast⟩
  · rw [hnil]
    exact stem_topmost
  · have hne : trimEnd front ≠ [] := by simp [hlast]
    have hkept : ∀ s ∈ trimEnd front, '/' ∉ s := fun s hs =>
      hslash s ((trimEnd_isPrefix front).subset hs)
    have hsegments : segments (ofParts ⟨.root, trimEnd front⟩).text.toList =
        ([] :: start) ++ [last] := by
      simp only [ofParts, String.toList_ofList, segments, if_true]
      rw [segments_joinSegments hne hkept, hlast, List.cons_append]
    obtain ⟨c, hc⟩ := component?_of_trimEnd hlast
    have hstem := stem_eq_segments hsegments (by rintro rfl; cases hc)
    rw [hstem, hlast, List.cons_append]

/-- A path is also found again from its parent. What stands for nothing at the end of the parent is
lost then. -/
theorem exists_parent {p : Path} {front : List (List Char)} {last : List Char}
    (hp : p.parts = ⟨.root, front ++ [last]⟩) (hlast : component? last ≠ none) :
    ∃ base, p.parent? = some base ∧ (base.join (p.relativeTo base)).Abridges p := by
  have hslash : ∀ s ∈ front, '/' ∉ s := by
    intro s hs
    apply @no_slash_of_mem_body p
    rw [hp]
    exact List.mem_append_left _ hs
  have hparent : p.parent? = some (ofParts ⟨.root, trimEnd front⟩) := by
    have hkept : trimEnd (front ++ [last]) = front ++ [last] :=
      List.rdropWhile_concat_neg _ _ _ (mt standsForNothing_iff.mp hlast)
    simp [parent?, hp, hkept]
  have hparts : p.parts =
      ⟨.root, trimEnd front ++ (front.rtakeWhile standsForNothing ++ [last])⟩ := by
    have hsplit : trimEnd front ++ front.rtakeWhile standsForNothing = front :=
      List.rdropWhile_append_rtakeWhile
    rw [hp, ← List.append_assoc, hsplit]
  refine ⟨_, hparent, abridges_join_relativeTo ?_ (stem_ofParts_trimEnd hslash) hparts ?_ ?_ ?_⟩
  · exact isAbsolute_iff.mpr ⟨_, String.toList_ofList⟩
  · intro s hs
    exact standsForNothing_iff.mp (List.mem_rtakeWhile_imp hs)
  · exact List.cons_ne_nil _ _
  · exact List.forall_mem_singleton.mpr hlast

end Path

theorem Spot.isFile_of_step {s t : Spot} {segment : List Char} (h : s.step segment = .ok t) :
    s.entry.isFile = false := by
  unfold Spot.step at h
  split at h
  · cases h
  · rename_i hentry
    rw [hentry]
    rfl

theorem Spot.eq_of_steps {s t : Spot} {blanks : List (List Char)}
    (hblanks : ∀ segment ∈ blanks, component? segment = none)
    (h : blanks.foldlM Spot.step s = .ok t) : t = s := by
  have hkept : ∀ u v, ∀ segment ∈ blanks, u = s → u.step segment = .ok v → v = s := by
    intro u v segment hsegment hu hstep
    exact (Spot.eq_of_step (hblanks segment hsegment) hstep).trans hu
  exact @Spot.kept_of_steps (· = s) s t blanks hkept h rfl

namespace Disk

variable {disk : Disk} {p q : Path} {spot : Spot}

/-- Without the segments that stand for nothing a path still leads to the same spot. It is not too
long to be looked up, since it is no longer than before. -/
theorem find_of_abridges (h : q.Abridges p) (hfind : disk.find p = .ok spot) :
    disk.find q = .ok spot := by
  have hsublist := h.text_sublist
  obtain ⟨front, blanks, rest, hp, hq, hblanks⟩ := h
  have hpabsolute : p.isAbsolute = true := by
    rw [isAbsolute, hp]
    rfl
  have hqabsolute : q.isAbsolute = true := by
    rw [isAbsolute, hq]
    rfl
  obtain ⟨⟨hnull, hlong⟩, hsteps⟩ := (find_eq_ok_iff hpabsolute).mp hfind
  refine (find_eq_ok_iff hqabsolute).mpr ⟨⟨fun hmem => hnull (hsublist.subset hmem), ?_⟩, ?_⟩
  · have hbytes := String.utf8Len_le_of_sublist hsublist
    rw [String.utf8Len_toList, String.utf8Len_toList] at hbytes
    exact hbytes.trans hlong
  · rw [segments_of_parts hp, ← List.cons_append, List.foldlM_append] at hsteps
    obtain ⟨before, hbefore, hafter⟩ := bind_eq_ok_iff.mp hsteps
    rw [List.foldlM_append] at hafter
    obtain ⟨after, hblank, hrest⟩ := bind_eq_ok_iff.mp hafter
    rw [Spot.eq_of_steps hblanks hblank] at hrest
    rw [segments_of_parts hq, ← List.cons_append, List.foldlM_append, hbefore]
    exact hrest

/-- The path of a file does not end in dots or slashes. -/
theorem exists_last_of_isFile (hp : p.isAbsolute = true) (hfind : disk.find p = .ok spot)
    (hfile : spot.entry.isFile = true) :
    ∃ front last, p.parts = ⟨.root, front ++ [last]⟩ ∧ component? last ≠ none := by
  obtain ⟨body, hbody, hsegments, hparts⟩ := exists_of_isAbsolute hp
  have hsplit := List.dropLast_append_getLast hbody
  refine ⟨body.dropLast, body.getLast hbody, by rw [hsplit, hparts], ?_⟩
  have hsteps := ((find_eq_ok_iff hp).mp hfind).2
  rw [hsegments, ← hsplit, ← List.cons_append, List.foldlM_append] at hsteps
  obtain ⟨before, -, hlast⟩ := bind_eq_ok_iff.mp hsteps
  intro hnone
  -- The step that stays would start from the file, but every step starts from a directory.
  obtain rfl := Spot.eq_of_steps (List.forall_mem_singleton.mpr hnone) hlast
  rw [List.foldlM_cons] at hlast
  obtain ⟨_, hstep, -⟩ := bind_eq_ok_iff.mp hlast
  rw [Spot.isFile_of_step hstep] at hfile
  cases hfile

end Disk

namespace Analyzer

variable {a : Analyzer} {disk : Disk} {grammar : Grammar}

/-- Seen from the base directory and joined to it again, a selected file keeps its path, except for
dots and slashes. -/
theorem abridges_of_selected (hdisk : disk.top.Proper) (hroot : a.root.isAbsolute = true)
    {found : List Path} (hfound : a.discover disk = .ok found) {p : Path}
    (hp : p ∈ a.selected disk found) :
    ((a.baseDir disk).join (p.relativeTo (a.baseDir disk))).Abridges p := by
  obtain ⟨hmem, hselected⟩ := mem_selected.mp hp
  rcases discover_cases hdisk hroot hfound with ⟨spot, hspot, hfile, rfl⟩ | ⟨hdirectory, hchains⟩
  · obtain rfl := List.mem_singleton.mp hmem
    obtain ⟨front, last, hparts, hlast⟩ := Disk.exists_last_of_isFile hroot hspot hfile
    obtain ⟨base, hparent, habridges⟩ := exists_parent hparts hlast
    have hbase : a.baseDir disk = base := by simp [baseDir, Disk.isFile, hspot, hfile, hparent]
    rw [hbase]
    exact habridges
  · obtain ⟨names, rfl⟩ := hchains p hmem
    obtain ⟨contents, hfile⟩ := Disk.isFile_iff.mp hselected.isFile
    have hbase : a.baseDir disk = a.root := @baseDir_rootedAt a disk a.root hdirectory
    rw [hbase]
    exact abridges_under hroot (names_ne_nil_of_file hdirectory hfile)

def onlyWith (a : Analyzer) (rule : Rule) : Analyzer := { a with rules := [rule] }

def ReportedBy (a : Analyzer) (disk : Disk) (grammar : Grammar) (rule : Rule) (p : Path)
    (text : String) (v : Violation) : Prop :=
  disk.readText p = .ok text ∧
    ∃ output, (a.onlyWith rule).analyzeSource grammar (a.baseDir disk) p text = .ok output ∧
      v ∈ output

theorem ReportedBy.location_file {rule : Rule} (hrule : rule.LocatesAtPath) {p : Path}
    {text : String} {v : Violation} (h : a.ReportedBy disk grammar rule p text v) :
    v.location.file = p.relativeTo (a.baseDir disk) := by
  obtain ⟨-, output, houtput, hv⟩ := h
  have hrules : ∀ other ∈ (a.onlyWith rule).rules, other.LocatesAtPath :=
    List.forall_mem_singleton.mpr hrule
  exact (analyzeSource_eq_ok_iff.mp houtput).location_file hrules v hv

theorem mem_reports_iff {path : Path} {file : SourceFile} {v : Violation} :
    v ∈ a.reports path file ↔ ∃ rule ∈ a.rules, v ∈ (a.onlyWith rule).reports path file := by
  simp only [reports, onlyWith, List.mem_flatMap, List.mem_filter, List.mem_singleton]
  constructor
  · rintro ⟨rule, ⟨hrule, henabled⟩, hv⟩
    exact ⟨rule, hrule, rule, ⟨rfl, henabled⟩, hv⟩
  · rintro ⟨_, hrule, rule, ⟨rfl, henabled⟩, hv⟩
    exact ⟨rule, ⟨hrule, henabled⟩, hv⟩

/-- What is reported on a text is what the rules report on it one by one. -/
theorem mem_output_iff {base p : Path} {text : String} {output : List Violation}
    (h : a.analyzeSource grammar base p text = .ok output) {v : Violation} :
    v ∈ output ↔ ∃ rule ∈ a.rules, ∃ own,
      (a.onlyWith rule).analyzeSource grammar base p text = .ok own ∧ v ∈ own := by
  have hfail : ∀ rule, (a.onlyWith rule).failOnParseError = a.failOnParseError := fun _ => rfl
  unfold analyzeSource at h ⊢
  split at h
  · obtain rfl := Except.ok.inj h
    simp
  · dsimp only at h ⊢
    split at h
    · cases h
    · rename_i hparsed
      obtain rfl := Except.ok.inj h
      rw [mem_reports_iff]
      simp [hfail, hparsed]

/-- The report of an analysis holds exactly what the rules report on the selected files. -/
theorem mem_violations_iff {found : List Path} (hfound : a.discover disk = .ok found)
    {report : Report} (h : a.analyze disk grammar = .ok report) {v : Violation} :
    v ∈ report.violations ↔ ∃ p ∈ a.selected disk found, ∃ text, ∃ rule ∈ a.rules,
      a.ReportedBy disk grammar rule p text v := by
  rw [analyze, hfound] at h
  change a.analyzeFound disk grammar found = .ok report at h
  obtain ⟨outputs, houtputs, hdone⟩ := bind_eq_ok_iff.mp h
  obtain rfl := Except.ok.inj hdone
  rw [mapM_eq_ok_iff] at houtputs
  rw [Report.sort, List.mem_mergeSort, List.mem_flatten]
  constructor
  · rintro ⟨output, houtput, hv⟩
    obtain ⟨p, hp, hanalysed⟩ := exists_of_mem_right houtputs houtput
    obtain ⟨text, hread, hsource⟩ := yields_iff.mpr hanalysed
    obtain ⟨rule, hrule, hreported⟩ := (mem_output_iff hsource).mp hv
    exact ⟨p, hp, text, rule, hrule, hread, hreported⟩
  · rintro ⟨p, hp, text, rule, hrule, hread, hreported⟩
    obtain ⟨output, houtput, hanalysed⟩ := exists_of_mem_right houtputs.flip hp
    obtain ⟨other, hother, hsource⟩ := yields_iff.mpr hanalysed
    obtain rfl := Except.ok.inj (hread.symm.trans hother)
    exact ⟨output, houtput, (mem_output_iff hsource).mpr ⟨rule, hrule, hreported⟩⟩

section Snippets

variable {found : List Path} {rule : Rule} {p : Path} {text : String} {v : Violation}
  (hdisk : disk.top.Proper) (hroot : a.root.isAbsolute = true)
  (hfound : a.discover disk = .ok found) (hp : p ∈ a.selected disk found)
  (hlocates : rule.LocatesAtPath) (hv : a.ReportedBy disk grammar rule p text v)

include hdisk hfound hp hlocates hv

section Roots

include hroot

theorem abridges_snippetPath : (a.snippetPath disk v).Abridges p := by
  rw [snippetPath, hv.location_file hlocates]
  exact abridges_of_selected hdisk hroot hfound hp

theorem find_snippetPath : disk.find (a.snippetPath disk v) = disk.find p := by
  obtain ⟨contents, hentry⟩ := Disk.isFile_iff.mp (mem_selected.mp hp).2.isFile
  obtain ⟨spot, hspot, -⟩ := Disk.entryAt?_eq_some_iff.mp hentry
  have habridges := abridges_snippetPath hdisk hroot hfound hp hlocates hv
  rw [hspot, Disk.find_of_abridges habridges hspot]

theorem readText_snippetPath : disk.readText (a.snippetPath disk v) = .ok text := by
  have hfind := find_snippetPath hdisk hroot hfound hp hlocates hv
  rw [← hv.1, Disk.readText, Disk.readText, Disk.contents, Disk.contents, hfind]

end Roots

theorem components_eq_of_reported {rule' : Rule} {q : Path} {other : String} {w : Violation}
    (hq : q ∈ a.selected disk found) (hlocates' : rule'.LocatesAtPath)
    (hw : a.ReportedBy disk grammar rule' q other w)
    (hsame : v.location.file.components = w.location.file.components) :
    p.components = q.components := by
  have hwalked := walked_of_discover hdisk hfound
  have hbelow : ∀ r ∈ a.selected disk found, (a.baseDir disk).components <+: r.components :=
    fun r hr => (baseDir_isPrefix a disk).trans (hwalked.fromRoot r (mem_selected.mp hr).1)
  rw [← components_relativeTo (hbelow p hp), ← components_relativeTo (hbelow q hq),
    ← hv.location_file hlocates, ← hw.location_file hlocates', hsame]

end Snippets

open CommandLine (source? inSameFile)

/-- A violation is shown in the text that it was found in, though the text is read only for the
first violation of the file. -/
theorem source?_eq_some {found : List Path} {report : Report} {p : Path} {rule : Rule}
    {text : String} {v : Violation} (hdisk : disk.top.Proper) (hroot : a.root.isAbsolute = true)
    (hlocates : ∀ rule ∈ a.rules, rule.LocatesAtPath) (hfound : a.discover disk = .ok found)
    (hreport : a.analyze disk grammar = .ok report) (hp : p ∈ a.selected disk found)
    (hrule : rule ∈ a.rules) (hv : a.ReportedBy disk grammar rule p text v) :
    source? disk a report v = some text := by
  have hmem : v ∈ report.violations :=
    (mem_violations_iff hfound hreport).mpr ⟨p, hp, text, rule, hrule, hv⟩
  have hsome : (report.violations.find? (inSameFile v)).isSome = true :=
    List.find?_isSome.mpr ⟨v, hmem, beq_self_eq_true _⟩
  obtain ⟨w, hfind⟩ := Option.isSome_iff_exists.mp hsome
  obtain ⟨q, hq, other, rule', hrule', hw⟩ :=
    (mem_violations_iff hfound hreport).mp (List.mem_of_find?_eq_some hfind)
  have hfile : inSameFile v w = true := List.find?_some hfind
  have hsame : v.location.file.components = w.location.file.components := beq_iff_eq.mp hfile
  have hpq : p.components = q.components := components_eq_of_reported hdisk hfound hp
    (hlocates rule hrule) hv hq (hlocates rule' hrule') hw hsame
  -- A walk finds nothing twice, so it is the same file.
  obtain rfl : p = q :=
    List.inj_on_of_nodup_map (selected_nodup (walked_of_discover hdisk hfound)) hp hq hpq
  obtain rfl : text = other := Except.ok.inj (hv.1.symm.trans hw.1)
  rw [source?, hfind, Option.bind_some,
    readText_snippetPath hdisk hroot hfound hp (hlocates rule' hrule') hw]
  rfl

/-- The report of an analysis holds what its rules find in the selected files. However the root is
written, the rule against separate handlers reports at a path that leads back to the file: joined to
the base directory it has the components of the path that was analysed, and what is read there is
the text that was analysed. Paths with different components are reported with different ones. -/
theorem reported_path_leads_back {setup : Setup} {current : Path} {a : Analyzer} {disk : Disk}
    {found : List Path} (hdisk : disk.top.Proper) (hcurrent : current.isAbsolute = true)
    (hbuilt : setup.build current = .ok a) (hfound : a.discover disk = .ok found)
    (grammar : Grammar) :
    (∀ report, a.analyze disk grammar = .ok report → ∀ v, v ∈ report.violations ↔
      ∃ p ∈ a.selected disk found, ∃ text, ∃ rule ∈ a.rules,
        a.ReportedBy disk grammar rule p text v) ∧
    (∀ p ∈ a.selected disk found, ∀ settings text v,
      a.ReportedBy disk grammar (PreferObserver.rule settings) p text v →
        (a.snippetPath disk v).components = p.components ∧
        disk.find (a.snippetPath disk v) = disk.find p ∧
        disk.readText (a.snippetPath disk v) = .ok text) ∧
    ∀ p ∈ a.selected disk found, ∀ q ∈ a.selected disk found, p.components ≠ q.components →
      ∀ settings others text other v w,
        a.ReportedBy disk grammar (PreferObserver.rule settings) p text v →
        a.ReportedBy disk grammar (PreferObserver.rule others) q other w →
          v.location.file.components ≠ w.location.file.components := by
  have hroot : a.root.isAbsolute = true := by
    rw [(Setup.build_eq_ok_iff.mp hbuilt).root]
    exact isAbsolute_join hcurrent _
  have hlocated := PreferObserver.rule_locatesAtPath
  refine ⟨fun _ hreport _ => mem_violations_iff hfound hreport, ?_, ?_⟩
  · intro p hp settings text v hv
    exact ⟨(abridges_snippetPath hdisk hroot hfound hp (hlocated settings) hv).components_eq,
      find_snippetPath hdisk hroot hfound hp (hlocated settings) hv,
      readText_snippetPath hdisk hroot hfound hp (hlocated settings) hv⟩
  · intro p hp q hq hne settings others text other v w hv hw hsame
    exact hne (components_eq_of_reported hdisk hfound hp (hlocated settings) hv hq
      (hlocated others) hw hsame)

open CommandLine (single violationAt reportOf_single)

/-- Two files of the same name and text, one in the topmost directory and one below it. -/
def twins : Disk where
  top := .directory [("a.ts", .file { text := "s.subscribe(a, b);" }),
    ("b", .directory [("a.ts", .file { text := "s.subscribe(a, b);" })])]
  current := ⟨"/"⟩

def twinsSetup (root : String) : Setup where
  root := some ⟨root⟩
  rules := [PreferObserver.rule {}]
  excludes := ["x"]

def twinsFrom (root : Path) : Analyzer where
  root
  rules := [PreferObserver.rule {}]
  excludes := ["x"].filterMap fun pattern => (Glob.parse pattern).toOption
  config := {}
  failOnParseError := false

theorem build_twins (root : String) :
    (twinsSetup root).build ⟨"/"⟩ = .ok (twinsFrom ((Path.mk "/").join ⟨root⟩)) := by
  have hglobs : ["x"].mapM (fun p => (Glob.parse p).mapError AnalysisError.badPattern) =
      .ok (twinsFrom ⟨root⟩).excludes := rfl
  change (["x"].mapM fun p => (Glob.parse p).mapError AnalysisError.badPattern) >>= _ = _
  rw [hglobs]
  rfl

theorem reportedBy_twins {root p base file : Path}
    (hread : twins.readText p = .ok "s.subscribe(a, b);")
    (hdialect : Dialect.ofPath? p = some .typeScript)
    (hbase : (twinsFrom root).baseDir twins = base) (hfile : p.relativeTo base = file) :
    (twinsFrom root).ReportedBy twins single.grammar (PreferObserver.rule {}) p "s.subscribe(a, b);"
      (violationAt file) := by
  have hreports : ((twinsFrom root).onlyWith (PreferObserver.rule {})).reports file
      (.parse single.grammar p .typeScript "s.subscribe(a, b);") = [violationAt file] := by
    rw [reports]
    change List.flatMap _ [PreferObserver.rule {}] = _
    rw [List.flatMap_singleton]
    exact reportOf_single p file
  refine ⟨hread, [violationAt file], ?_, List.mem_singleton_self _⟩
  simp only [analyzeSource, hdialect, hbase, hfile, hreports]
  rfl

theorem twins_proper : twins.top.Proper := by
  simp [twins, Entry.Proper, Entry.ProperAll, Path.IsName, Path.component?]

/-- The topmost directory, in a roundabout way. -/
def twinsRoot : Path := ⟨"/b/..//."⟩

theorem find_twinsRoot : twins.find twinsRoot = .ok ⟨twins.top, [], []⟩ :=
  (Disk.find_eq_ok_iff (by decide)).mpr ⟨⟨by decide, by decide⟩, rfl⟩

theorem twins_hasDirectory : twins.HasDirectory twinsRoot :=
  ⟨twins_proper, by decide, _, find_twinsRoot, rfl⟩

theorem isName_file : IsName "a.ts" := ⟨by decide, by decide⟩

theorem isName_directory : IsName "b" := ⟨by decide, by decide⟩

def upperTwin : List Name := [⟨"a.ts", isName_file⟩]

def lowerTwin : List Name := [⟨"b", isName_directory⟩, ⟨"a.ts", isName_file⟩]

def twinChains : List (List Name) := [[], upperTwin, [⟨"b", isName_directory⟩], lowerTwin]

theorem discover_twins :
    (twinsFrom twinsRoot).discover twins = .ok (twinChains.map twinsRoot.under) := by
  have hentries : Walk.entries twins twinsRoot true = .ok (twinChains.map twinsRoot.under) := by
    rw [Walk.entries, find_twinsRoot]
    rfl
  exact mapError_eq_ok_iff.mpr hentries

section Twins

variable {names : List Name} (hnames : names = upperTwin ∨ names = lowerTwin)

include hnames

theorem entryAt?_twins :
    twins.entryAt? (twinsRoot.under names) = some (.file { text := "s.subscribe(a, b);" }) := by
  have hadmits : Disk.Admits twinsRoot := ⟨by decide, by decide⟩
  rw [Disk.entryAt?_under_eq_some_iff (by decide) find_twinsRoot]
  rcases hnames with rfl | rfl
  · exact ⟨(Disk.admits_under_iff hadmits (by decide)).mpr (by decide), rfl⟩
  · exact ⟨(Disk.admits_under_iff hadmits (by decide)).mpr (by decide), rfl⟩

theorem dialect_twins : Dialect.ofPath? (ofNames names) = some .typeScript := by
  rcases hnames with rfl | rfl <;> decide

theorem mem_selected_twins :
    twinsRoot.under names ∈
      (twinsFrom twinsRoot).selected twins (twinChains.map twinsRoot.under) := by
  have hfound : names ∈ twinChains := by
    rcases hnames with rfl | rfl <;> simp [twinChains]
  have hunmatched : (twinsFrom twinsRoot).excludes.all
      (fun glob => !glob.isMatch (ofNames names).text) = true := by
    rcases hnames with rfl | rfl <;> decide
  refine mem_selected.mpr ⟨List.mem_map_of_mem hfound, ?_⟩
  exact (selected_under_iff (a := twinsFrom twinsRoot) twins_hasDirectory _).mpr
    ⟨⟨_, entryAt?_twins hnames⟩, ⟨_, dialect_twins hnames⟩, by simpa using hunmatched⟩

theorem reportedBy_under :
    (twinsFrom twinsRoot).ReportedBy twins single.grammar (PreferObserver.rule {})
      (twinsRoot.under names) "s.subscribe(a, b);" (violationAt (ofNames names)) := by
  have hne : names ≠ [] := by
    rcases hnames with rfl | rfl <;> exact List.cons_ne_nil _ _
  refine reportedBy_twins ?_ ?_ (@baseDir_rootedAt (twinsFrom twinsRoot) _ _ twins_hasDirectory)
    (relativeTo_under (by decide) hne)
  · exact Disk.readText_eq_ok_iff.mpr ⟨_, entryAt?_twins hnames, rfl, rfl⟩
  · rw [dialect_under _ hne, dialect_twins hnames]

end Twins

def twinPath : Path := ⟨"/b/.././/b//a.ts"⟩

theorem find_twinPath : twins.find twinPath =
    .ok ⟨.file { text := "s.subscribe(a, b);" }, ["a.ts", "b"],
      [.directory [("a.ts", .file { text := "s.subscribe(a, b);" })], twins.top]⟩ :=
  (Disk.find_eq_ok_iff (by decide)).mpr ⟨⟨by decide, by decide⟩, rfl⟩

theorem isFile_twinPath : twins.isFile twinPath = true := Disk.isFile_of_find find_twinPath

theorem discover_twinPath : (twinsFrom twinPath).discover twins = .ok [twinPath] :=
  discover_of_isFile find_twinPath rfl

theorem baseDir_twinPath : (twinsFrom twinPath).baseDir twins = ⟨"/b/.././/b"⟩ := by
  have hparent : twinPath.parent? = some ⟨"/b/.././/b"⟩ := by decide
  change (if twins.isFile twinPath then twinPath.parent?.getD twinPath else twinPath) = _
  rw [isFile_twinPath, hparent]
  rfl

theorem relativeTo_twinPath : twinPath.relativeTo ⟨"/b/.././/b"⟩ = ⟨"a.ts"⟩ := by decide

theorem dialect_twinPath : Dialect.ofPath? twinPath = some .typeScript := by decide

theorem mem_selected_twinPath : twinPath ∈ (twinsFrom twinPath).selected twins [twinPath] := by
  refine mem_selected.mpr
    ⟨List.mem_singleton_self _, isFile_twinPath, ⟨_, dialect_twinPath⟩, ?_⟩
  have hunmatched : (twinsFrom twinPath).excludes.all
      (fun glob => !glob.isMatch "a.ts") = true := by decide
  rw [baseDir_twinPath, relativeTo_twinPath]
  simpa using hunmatched

theorem reportedBy_twinPath :
    (twinsFrom twinPath).ReportedBy twins single.grammar (PreferObserver.rule {}) twinPath
      "s.subscribe(a, b);" (violationAt ⟨"a.ts"⟩) := by
  have hread : twins.readText twinPath = .ok "s.subscribe(a, b);" :=
    Disk.readText_of_find find_twinPath rfl rfl
  exact reportedBy_twins hread dialect_twinPath baseDir_twinPath relativeTo_twinPath

/-- From the topmost directory the files are told apart. If the lower one is the root itself, its
snippet is read from a path in which a slash is missing. -/
theorem twins_lead_back :
    twins.top.Proper ∧ (Path.mk "/").isAbsolute = true ∧
    (twinsSetup "b/..//.").build ⟨"/"⟩ = .ok (twinsFrom twinsRoot) ∧
    (twinsFrom twinsRoot).discover twins = .ok (twinChains.map twinsRoot.under) ∧
    (∀ names, names = upperTwin ∨ names = lowerTwin →
      ((twinsFrom twinsRoot).snippetPath twins (violationAt (ofNames names))).components =
        (twinsRoot.under names).components) ∧
    (ofNames upperTwin).components ≠ (ofNames lowerTwin).components ∧
    (twinsSetup "b/.././/b//a.ts").build ⟨"/"⟩ = .ok (twinsFrom twinPath) ∧
    (twinsFrom twinPath).discover twins = .ok [twinPath] ∧
    (twinsFrom twinPath).snippetPath twins (violationAt ⟨"a.ts"⟩) = ⟨"/b/.././/b/a.ts"⟩ ∧
    (Path.mk "/b/.././/b/a.ts").components = twinPath.components ∧
    twins.readText ⟨"/b/.././/b/a.ts"⟩ = .ok "s.subscribe(a, b);" := by
  have hcurrent : (Path.mk "/").isAbsolute = true := by decide
  have hroot : (Path.mk "/").join ⟨"b/..//."⟩ = twinsRoot :=
    (join_after_slash (by decide) (by decide)).trans rfl
  have hpath : (Path.mk "/").join ⟨"b/.././/b//a.ts"⟩ = twinPath :=
    (join_after_slash (by decide) (by decide)).trans rfl
  have hsnippet : (twinsFrom twinPath).snippetPath twins (violationAt ⟨"a.ts"⟩) =
      ⟨"/b/.././/b/a.ts"⟩ := by
    rw [snippetPath, baseDir_twinPath]
    exact (join_after_name (by decide) (by decide) (by decide)).trans rfl
  have hbuilt := build_twins "b/..//."
  have hbuilt' := build_twins "b/.././/b//a.ts"
  rw [hroot] at hbuilt
  rw [hpath] at hbuilt'
  obtain ⟨-, hleads, hapart⟩ :=
    reported_path_leads_back twins_proper hcurrent hbuilt discover_twins single.grammar
  obtain ⟨-, hleads', -⟩ :=
    reported_path_leads_back twins_proper hcurrent hbuilt' discover_twinPath single.grammar
  obtain ⟨hsame, -, hread⟩ := hleads' _ mem_selected_twinPath _ _ _ reportedBy_twinPath
  rw [hsnippet] at hsame hread
  refine ⟨twins_proper, hcurrent, hbuilt, discover_twins, ?_, ?_, hbuilt', discover_twinPath,
    hsnippet, hsame, hread⟩
  · intro names hnames
    exact (hleads _ (mem_selected_twins hnames) _ _ _ (reportedBy_under hnames)).1
  · have hne : (twinsRoot.under upperTwin).components ≠ (twinsRoot.under lowerTwin).components := by
      rw [components_under, components_under]
      intro hsame
      have htwins := nameComponents_injective (List.append_cancel_left hsame)
      exact absurd htwins (by decide)
    have hupper : upperTwin = upperTwin ∨ upperTwin = lowerTwin := Or.inl rfl
    have hlower : lowerTwin = upperTwin ∨ lowerTwin = lowerTwin := Or.inr rfl
    exact hapart _ (mem_selected_twins hupper) _ (mem_selected_twins hlower) hne _ _ _ _ _ _
      (reportedBy_under hupper) (reportedBy_under hlower)

end Analyzer

end ObserverLint
