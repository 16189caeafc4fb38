import ObserverLint.Dialect
import ObserverLint.Disk
import ObserverLint.Proofs.Paths
import ObserverLint.Proofs.Traversal

namespace ObserverLint.Path

abbrev Name := { name : String // IsName name }

/-- The path that leads from `p` down a chain of names. -/
def under (p : Path) (names : List Name) : Path := names.foldl (fun q name => q.join ⟨name.1⟩) p

theorem under_cons (p : Path) (name : Name) (names : List Name) :
    p.under (name :: names) = (p.join ⟨name.1⟩).under names := rfl

def nameSegments (names : List Name) : List (List Char) := names.map fun name => name.1.toList

def ofNames (names : List Name) : Path := ofParts ⟨.none, nameSegments names⟩

def nameComponents (names : List Name) : List Component := names.map fun name => .name name.1

theorem filterMap_nameSegments (names : List Name) :
    (nameSegments names).filterMap component? = nameComponents names := by
  rw [nameSegments, List.filterMap_map, nameComponents, ← List.filterMap_eq_map]
  apply List.filterMap_congr
  intro name _
  exact name.2.1

theorem component?_of_mem_nameSegments {names : List Name} {s : List Char}
    (h : s ∈ nameSegments names) : component? s ≠ none := by
  obtain ⟨name, -, rfl⟩ := List.mem_map.mp h
  rw [name.2.1]
  exact Option.some_ne_none _

theorem components_under (p : Path) (names : List Name) :
    (p.under names).components = p.components ++ nameComponents names := by
  induction names generalizing p with
  | nil => simp [under, nameComponents]
  | cons name names ih =>
    rw [under_cons, ih, components_join_name name.2, List.append_assoc]
    rfl

theorem components_ofNames (names : List Name) :
    (ofNames names).components = nameComponents names := by
  have hslash : ∀ s ∈ nameSegments names, '/' ∉ s := by
    intro s hs
    obtain ⟨name, -, rfl⟩ := List.mem_map.mp hs
    exact name.2.2
  have hplain : BeginsPlain (nameSegments names) := by
    intro s hs
    exact component?_of_mem_nameSegments (List.mem_of_mem_head? hs)
  rw [ofNames, components_ofParts hslash fun _ => hplain, filterMap_nameSegments]
  rfl

theorem nameComponents_injective : Function.Injective nameComponents := by
  apply List.map_injective_iff.mpr
  intro name other h
  exact Subtype.ext (Component.name.inj h)

theorem under_injective (p : Path) : Function.Injective p.under := by
  intro names others h
  apply nameComponents_injective
  have hcomponents := congrArg components h
  rw [components_under, components_under] at hcomponents
  exact List.append_cancel_left hcomponents

/-- Paths under one directory compare as the chains of names do. -/
theorem order_under (p : Path) (names others : List Name) :
    (p.under names).order (p.under others) = (ofNames names).order (ofNames others) := by
  rw [order, order, components_under, components_under, components_ofNames, components_ofNames,
    orderComponents_append_left]

theorem isAbsolute_of_name (name : Name) : (Path.mk name.1).isAbsolute = false := by
  have hlead := (components_of_isName name.2).1
  simp [isAbsolute, hlead]

theorem name_ne_nil (name : Name) : name.1.toList ≠ [] := by
  intro hnil
  have hcomponent := name.2.1
  rw [hnil] at hcomponent
  cases hcomponent

theorem segments_join_name {p : Path} (hp : p.text.toList ≠ []) (name : Name) :
    segments (p.join ⟨name.1⟩).text.toList = p.stem ++ [name.1.toList] := by
  rw [segments_join hp (isAbsolute_of_name name), segments_of_no_slash name.2.2]

theorem join_name_ne_nil {p : Path} (hp : p.text.toList ≠ []) (name : Name) :
    (p.join ⟨name.1⟩).text.toList ≠ [] := by
  intro hnil
  have hsegments := segments_join_name hp name
  rw [hnil] at hsegments
  have hlast := congrArg List.getLast? hsegments
  exact name_ne_nil name (by simpa [segments] using hlast.symm)

/-- A path with something after its last slash is its own stem. -/
theorem stem_eq_segments {p : Path} {front : List (List Char)} {last : List Char}
    (h : segments p.text.toList = front ++ [last]) (hlast : last ≠ []) :
    p.stem = front ++ [last] := by
  rw [stem, if_neg, h]
  intro hends
  obtain ⟨start, hstart⟩ := exists_of_endsWith hends
  rw [hstart, segments_append_slash] at h
  have hend := congrArg List.getLast? h
  exact hlast (by simpa [segments] using hend.symm)

theorem stem_join_name {p : Path} (hp : p.text.toList ≠ []) (name : Name) :
    (p.join ⟨name.1⟩).stem = p.stem ++ [name.1.toList] :=
  stem_eq_segments (segments_join_name hp name) (name_ne_nil name)

theorem segments_under {p : Path} (hp : p.text.toList ≠ []) {names : List Name} (h : names ≠ []) :
    segments (p.under names).text.toList = p.stem ++ nameSegments names := by
  induction names generalizing p with
  | nil => contradiction
  | cons name names ih =>
    rw [under_cons]
    by_cases hrest : names = []
    · rw [hrest]
      exact segments_join_name hp name
    · rw [ih (join_name_ne_nil hp name) hrest, stem_join_name hp name, List.append_assoc]
      rfl

theorem exists_of_isAbsolute {p : Path} (h : p.isAbsolute = true) :
    ∃ body, body ≠ [] ∧ segments p.text.toList = [] :: body ∧ p.parts = ⟨.root, body⟩ := by
  have hlead : p.parts.lead = .root := by simpa [isAbsolute] using h
  rcases parts_cases p with ⟨s, ss, hsegments, hparts⟩ | ⟨_, -, hparts⟩ | ⟨-, hparts⟩
  · exact ⟨s :: ss, List.cons_ne_nil _ _, hsegments, hparts⟩
  · simp [hparts] at hlead
  · simp [hparts] at hlead

theorem text_ne_nil_of_isAbsolute {p : Path} (h : p.isAbsolute = true) : p.text.toList ≠ [] := by
  obtain ⟨body, hbody, hsegments, -⟩ := exists_of_isAbsolute h
  intro hnil
  rw [hnil] at hsegments
  exact hbody (List.cons.inj hsegments).2.symm

theorem stem_of_isAbsolute {p : Path} (h : p.isAbsolute = true) :
    ∃ front, p.stem = [] :: front ∧ p.components = .root :: front.filterMap component? := by
  obtain ⟨body, -, hsegments, hparts⟩ := exists_of_isAbsolute h
  obtain ⟨s, ss, front, hs, hstem, hsame⟩ := exists_stem p
  obtain ⟨rfl, rfl⟩ := List.cons.inj (hs.symm.trans hsegments)
  refine ⟨front, hstem, ?_⟩
  rw [components, hparts, ← hsame]
  rfl

theorem parts_of_segments {p : Path} {body : List (List Char)} (hne : body ≠ [])
    (h : segments p.text.toList = [] :: body) : p.parts = ⟨.root, body⟩ := by
  obtain ⟨s, ss, rfl⟩ := List.exists_cons_of_ne_nil hne
  rw [parts, h]

theorem parts_under {p : Path} {front : List (List Char)} (hp : p.isAbsolute = true)
    (hstem : p.stem = [] :: front) {names : List Name} (h : names ≠ []) :
    (p.under names).parts = ⟨.root, front ++ nameSegments names⟩ := by
  have hsegments := segments_under (text_ne_nil_of_isAbsolute hp) h
  rw [hstem, List.cons_append] at hsegments
  refine parts_of_segments ?_ hsegments
  exact List.append_ne_nil_of_right_ne_nil _ (mt List.map_eq_nil_iff.mp h)

theorem isAbsolute_under {p : Path} (hp : p.isAbsolute = true) (names : List Name) :
    (p.under names).isAbsolute = true := by
  by_cases h : names = []
  · rw [h]
    exact hp
  · obtain ⟨front, hstem, -⟩ := stem_of_isAbsolute hp
    rw [isAbsolute, parts_under hp hstem h]
    rfl

/-- Dropping what some segments stand for leaves, of these, at most some that stand for nothing. -/
theorem dropComponents?_append (front rest : List (List Char)) :
    ∃ between, (∀ s ∈ between, standsForNothing s = true) ∧
      dropComponents? (front.filterMap component?) (front ++ rest) = some (between ++ rest) := by
  induction front with
  | nil => exact ⟨[], List.forall_mem_nil _, by simp [dropComponents?]⟩
  | cons s front ih =>
    obtain ⟨between, hbetween, hdrop⟩ := ih
    cases hs : component? s with
    | some d =>
      refine ⟨between, hbetween, ?_⟩
      rw [List.filterMap_cons_some hs, List.cons_append, dropComponents?, hs]
      simpa using hdrop
    | none =>
      rw [List.filterMap_cons_none hs]
      cases hcomponents : front.filterMap component? with
      | nil =>
        refine ⟨s :: front, ?_, by simp [dropComponents?]⟩
        intro t ht
        rcases List.mem_cons.mp ht with rfl | hmem
        · exact standsForNothing_iff.mpr hs
        · exact standsForNothing_iff.mpr (List.filterMap_eq_nil_iff.mp hcomponents t hmem)
      | cons c cs =>
        refine ⟨between, hbetween, ?_⟩
        rw [hcomponents] at hdrop
        rw [List.cons_append, dropComponents?, hs]
        exact hdrop

theorem trimEnd_eq_self {rest : List (List Char)} (h : ∀ s ∈ rest, component? s ≠ none) :
    trimEnd rest = rest := by
  apply List.rdropWhile_eq_self_iff.mpr
  intro hne hlast
  exact h _ (List.getLast_mem hne) (standsForNothing_iff.mp hlast)

theorem trimEnd_nameSegments (names : List Name) :
    trimEnd (nameSegments names) = nameSegments names :=
  trimEnd_eq_self fun _ => component?_of_mem_nameSegments

theorem dropWhile_append_eq {between rest : List (List Char)}
    (hbetween : ∀ s ∈ between, standsForNothing s = true)
    (hrest : ∀ s ∈ rest, component? s ≠ none) :
    (between ++ rest).dropWhile standsForNothing = rest := by
  rw [List.dropWhile_append_of_pos hbetween]
  apply List.dropWhile_eq_self_iff.mpr
  intro hpos hfirst
  exact hrest _ (List.getElem_mem hpos) (standsForNothing_iff.mp hfirst)

/-- Seen from where its first segments lead, a path has only its other segments left. -/
theorem relativeTo_of_parts {p base : Path} {front rest : List (List Char)}
    (hp : p.parts = ⟨.root, front ++ rest⟩)
    (hbase : base.components = .root :: front.filterMap component?)
    (hrest : ∀ s ∈ rest, component? s ≠ none) : p.relativeTo base = ofParts ⟨.none, rest⟩ := by
  obtain ⟨between, hbetween, hdrop⟩ := dropComponents?_append front rest
  rw [relativeTo, relativeTo?, hbase, hp]
  simp [Lead.components, hdrop, relativeTo?.below, dropWhile_append_eq hbetween hrest,
    trimEnd_eq_self hrest]

/-- Seen from the directory only the names are left. -/
theorem relativeTo_under {p : Path} (hp : p.isAbsolute = true) {names : List Name}
    (h : names ≠ []) : (p.under names).relativeTo p = ofNames names := by
  obtain ⟨front, hstem, hcomponents⟩ := stem_of_isAbsolute hp
  exact relativeTo_of_parts (parts_under hp hstem h) hcomponents fun _ =>
    component?_of_mem_nameSegments

theorem dialect_under (p : Path) {names : List Name} (h : names ≠ []) :
    Dialect.ofPath? (p.under names) = Dialect.ofPath? (ofNames names) := by
  have hcomponents : nameComponents names ≠ [] := mt List.map_eq_nil_iff.mp h
  have hlast : (p.under names).components.getLast? = (ofNames names).components.getLast? := by
    rw [components_under, components_ofNames, List.getLast?_append_of_ne_nil _ hcomponents]
  rw [Dialect.ofPath?, Dialect.ofPath?, extension?, extension?, fileName?, fileName?, hlast]

theorem text_join_name (p : Path) (name : Name) :
    (p.join ⟨name.1⟩).text = p.text ++ name.1 ∨
      (p.join ⟨name.1⟩).text = p.text ++ "/" ++ name.1 := by
  rw [join, isAbsolute_of_name name]
  simp only [Bool.false_eq_true, if_false]
  split
  · exact Or.inl rfl
  · exact Or.inr rfl

theorem mem_text_under {c : Char} (hc : c ≠ '/') (p : Path) (names : List Name) :
    c ∈ (p.under names).text.toList ↔
      c ∈ p.text.toList ∨ ∃ name ∈ names, c ∈ name.1.toList := by
  induction names generalizing p with
  | nil => simp [under]
  | cons name names ih =>
    have hjoin : c ∈ (p.join ⟨name.1⟩).text.toList ↔ c ∈ p.text.toList ∨ c ∈ name.1.toList := by
      rcases text_join_name p name with htext | htext <;> simp [htext, hc]
    rw [under_cons, ih, hjoin, List.exists_mem_cons_iff, or_assoc]

/-- The most bytes that a chain of names adds to the path of a directory. -/
def chainBytes : List Name → Nat
  | [] => 0
  | name :: names => 1 + name.1.utf8ByteSize + chainBytes names

theorem bytes_under_le (p : Path) (names : List Name) :
    (p.under names).text.utf8ByteSize ≤ p.text.utf8ByteSize + chainBytes names := by
  induction names generalizing p with
  | nil => exact Nat.le_refl _
  | cons name names ih =>
    have hslash : "/".utf8ByteSize = 1 := rfl
    have hjoin : (p.join ⟨name.1⟩).text.utf8ByteSize ≤
        p.text.utf8ByteSize + 1 + name.1.utf8ByteSize := by
      rcases text_join_name p name with htext | htext <;>
        rw [htext] <;> simp only [String.utf8ByteSize_append, hslash] <;> omega
    have hrest := ih (p.join ⟨name.1⟩)
    rw [under_cons, chainBytes]
    omega

end ObserverLint.Path

namespace ObserverLint

open ObserverLint.Path Traversal

namespace Entry

def below? : Entry → List Name → Option Entry
  | e, [] => some e
  | e, name :: names =>
    if Spot.maxNameBytes < name.1.utf8ByteSize then none
    else (e.child? name.1).bind fun child => child.below? names

mutual

/-- The most bytes that a chain of names below the entry adds to its path. -/
def reach : Entry → Nat
  | .file _ => 0
  | .directory entries => reachAll entries

def reachAll : List (String × Entry) → Nat
  | [] => 0
  | (name, e) :: entries => max (1 + name.utf8ByteSize + e.reach) (reachAll entries)

end

theorem reach_le_of_mem {entries : List (String × Entry)} {named : String × Entry}
    (h : named ∈ entries) : 1 + named.1.utf8ByteSize + named.2.reach ≤ reachAll entries := by
  induction entries with
  | nil => cases h
  | cons first entries ih =>
    rw [reachAll]
    rcases List.mem_cons.mp h with rfl | hrest
    · exact Nat.le_max_left _ _
    · exact (ih hrest).trans (Nat.le_max_right _ _)

theorem reach_le_of_child? {e child : Entry} {name : String} (h : e.child? name = some child) :
    1 + name.utf8ByteSize + child.reach ≤ e.reach := by
  cases e with
  | file _ => cases h
  | directory entries =>
    obtain ⟨named, hfound, rfl⟩ := Option.map_eq_some_iff.mp h
    have hname : named.1 = name := by simpa using List.find?_some hfound
    rw [reach, ← hname]
    exact reach_le_of_mem (List.mem_of_find?_eq_some hfound)

theorem chainBytes_le_reach {e below : Entry} {names : List Name}
    (h : e.below? names = some below) : chainBytes names ≤ e.reach := by
  induction names generalizing e with
  | nil => exact Nat.zero_le _
  | cons name names ih =>
    rw [below?] at h
    split at h
    · cases h
    · obtain ⟨child, hchild, hbelow⟩ := Option.bind_eq_some_iff.mp h
      have hstep := reach_le_of_child? hchild
      have hrest := ih hbelow
      rw [chainBytes]
      omega

end Entry

/-- A step goes up, goes down to an entry, or stays. -/
theorem Spot.step_cases {s t : Spot} {segment : List Char} (h : s.step segment = .ok t) :
    (component? segment = some .up ∧ t = s.up) ∨
    (∃ name e, component? segment = some (.name name) ∧
      ¬ Spot.maxNameBytes < name.utf8ByteSize ∧ s.entry.child? name = some e ∧
      t = ⟨e, name :: s.names, s.entry :: s.above⟩) ∨
    (component? segment = none ∧ t = s) := by
  unfold Spot.step at h
  split at h
  · cases h
  · split at h
    · rename_i hup
      exact Or.inl ⟨hup, (Except.ok.inj h).symm⟩
    · rename_i name hname
      split at h
      · cases h
      · rename_i hshort
        split at h
        · rename_i e hchild
          exact Or.inr (Or.inl ⟨name, e, hname, hshort, hchild, (Except.ok.inj h).symm⟩)
        · cases h
    · rename_i hup hname
      refine Or.inr (Or.inr ⟨?_, (Except.ok.inj h).symm⟩)
      -- No segment stands for the topmost directory or for the current one.
      unfold component? at hup hname ⊢
      split <;> simp_all

/-- What every step keeps is kept by all of them. -/
theorem Spot.kept_of_steps {Kept : Spot → Prop} {s t : Spot} {ss : List (List Char)}
    (hkept : ∀ s t, ∀ segment ∈ ss, Kept s → s.step segment = .ok t → Kept t)
    (hsteps : ss.foldlM Spot.step s = .ok t) (hs : Kept s) : Kept t := by
  induction ss generalizing s with
  | nil =>
    obtain rfl := Except.ok.inj hsteps
    exact hs
  | cons segment ss ih =>
    rw [List.foldlM_cons] at hsteps
    obtain ⟨next, hstep, hrest⟩ := bind_eq_ok_iff.mp hsteps
    refine ih (fun s t other hother => hkept s t other (List.mem_cons_of_mem _ hother)) hrest ?_
    exact hkept s next segment List.mem_cons_self hs hstep

theorem Disk.steps_of_find {disk : Disk} {p : Path} {spot : Spot} (h : disk.find p = .ok spot) :
    (segments (disk.current.join p).text.toList).foldlM Spot.step ⟨disk.top, [], []⟩ =
      .ok spot := by
  unfold Disk.find at h
  split at h
  · cases h
  · split at h
    · cases h
    · split at h
      · cases h
      · exact h

theorem Spot.step_name (s : Spot) (name : Name) :
    (∃ fault, s.step name.1.toList = .error fault ∧
      (Spot.maxNameBytes < name.1.utf8ByteSize ∨ s.entry.child? name.1 = none)) ∨
    ∃ next, s.step name.1.toList = .ok next ∧ ¬ Spot.maxNameBytes < name.1.utf8ByteSize ∧
      s.entry.child? name.1 = some next.entry := by
  rw [Spot.step, name.2.1]
  cases hentry : s.entry with
  | file contents => exact Or.inl ⟨_, rfl, Or.inr rfl⟩
  | directory entries =>
    by_cases hlong : Spot.maxNameBytes < name.1.utf8ByteSize
    · exact Or.inl ⟨.nameTooLong, by simp [hlong], Or.inl hlong⟩
    · cases hchild : (Entry.directory entries).child? name.1 with
      | none => exact Or.inl ⟨.missing, by simp [hlong, hchild], Or.inr rfl⟩
      | some child =>
        exact Or.inr ⟨⟨child, name.1 :: s.names, .directory entries :: s.above⟩,
          by simp [hlong, hchild], hlong, rfl⟩

theorem Spot.eq_of_step {s t : Spot} {segment : List Char} (hnone : component? segment = none)
    (h : s.step segment = .ok t) : t = s := by
  rcases Spot.step_cases h with ⟨hup, -⟩ | ⟨_, _, hname, -⟩ | ⟨-, hstays⟩
  · cases hnone.symm.trans hup
  · cases hnone.symm.trans hname
  · exact hstays

/-- Where the names lead depends on nothing but the entry they start from. -/
theorem Spot.entry_of_steps (s : Spot) (names : List Name) :
    ((nameSegments names).foldlM Spot.step s).toOption.map Spot.entry = s.entry.below? names := by
  induction names generalizing s with
  | nil => rfl
  | cons name names ih =>
    rw [nameSegments, List.map_cons, List.foldlM_cons, Entry.below?]
    rcases s.step_name name with ⟨fault, hstep, hnone⟩ | ⟨next, hstep, hshort, hchild⟩
    · rw [hstep]
      rcases hnone with hlong | hchild
      · rw [if_pos hlong]
        rfl
      · rw [hchild]
        split <;> rfl
    · rw [hstep, if_neg hshort, hchild]
      exact ih next

namespace Disk

variable {disk : Disk} {root : Path}

def Admits (p : Path) : Prop :=
  '\x00' ∉ p.text.toList ∧ p.text.utf8ByteSize ≤ maxPathBytes

theorem find_eq_ok_iff {p : Path} (hp : p.isAbsolute = true) {spot : Spot} :
    disk.find p = .ok spot ↔
      Admits p ∧ (segments p.text.toList).foldlM Spot.step ⟨disk.top, [], []⟩ = .ok spot := by
  have hempty : p.text.isEmpty = false := by simpa using text_ne_nil_of_isAbsolute hp
  have hjoin : disk.current.join p = p := by rw [join, if_pos hp]
  rw [find, hjoin, hempty, String.contains_char_eq, Admits]
  by_cases hnull : '\x00' ∈ p.text.toList
  · simp [hnull]
  · by_cases hlong : maxPathBytes < p.text.utf8ByteSize
    · simp [hnull, hlong, Nat.not_le.mpr hlong]
    · simp [hnull, hlong, Nat.not_lt.mp hlong]

theorem isFile_of_find {p : Path} {spot : Spot} (h : disk.find p = .ok spot) :
    disk.isFile p = spot.entry.isFile := by
  rw [isFile, h]

theorem readText_of_find {p : Path} {spot : Spot} {contents : Contents}
    (h : disk.find p = .ok spot) (hentry : spot.entry = .file contents)
    (hwhole : contents.whole = true) : disk.readText p = .ok contents.text := by
  simp [readText, Disk.contents, h, hentry, hwhole, bind, Except.bind]

/-- The segments that names are joined after lead to the directory itself. -/
theorem steps_stem {spot : Spot} (hroot : root.isAbsolute = true) (h : disk.find root = .ok spot) :
    root.stem.foldlM Spot.step ⟨disk.top, [], []⟩ = .ok spot := by
  have hsteps := ((find_eq_ok_iff hroot).mp h).2
  by_cases hends : root.text.endsWith "/" = true
  · obtain ⟨front, hfront⟩ := exists_of_endsWith hends
    rw [hfront, segments_append_slash, List.foldlM_append] at hsteps
    obtain ⟨before, hbefore, hlast⟩ := bind_eq_ok_iff.mp hsteps
    rw [segments, List.foldlM_cons] at hlast
    obtain ⟨last, hstep, hdone⟩ := bind_eq_ok_iff.mp hlast
    obtain rfl := Except.ok.inj hdone
    rw [stem_of_slash hfront, hbefore, Spot.eq_of_step rfl hstep]
  · rw [stem, if_neg hends]
    exact hsteps

theorem find_under_eq_ok_iff {spot found : Spot} (hroot : root.isAbsolute = true)
    (h : disk.find root = .ok spot) (names : List Name) :
    disk.find (root.under names) = .ok found ↔
      Admits (root.under names) ∧ (nameSegments names).foldlM Spot.step spot = .ok found := by
  by_cases hnames : names = []
  · have hadmits := ((find_eq_ok_iff hroot).mp h).1
    subst hnames
    change disk.find root = .ok found ↔ Admits root ∧ Except.ok spot = .ok found
    rw [h]
    exact (and_iff_right hadmits).symm
  · rw [find_eq_ok_iff (isAbsolute_under hroot names),
      segments_under (text_ne_nil_of_isAbsolute hroot) hnames, List.foldlM_append,
      steps_stem hroot h]
    rfl

def entryAt? (disk : Disk) (p : Path) : Option Entry := (disk.find p).toOption.map Spot.entry

theorem entryAt?_eq_some_iff {p : Path} {e : Entry} :
    disk.entryAt? p = some e ↔ ∃ spot, disk.find p = .ok spot ∧ spot.entry = e := by
  rw [entryAt?]
  cases disk.find p <;> simp [Except.toOption]

theorem entryAt?_under_eq_some_iff {spot : Spot} (hroot : root.isAbsolute = true)
    (h : disk.find root = .ok spot) {names : List Name} {e : Entry} :
    disk.entryAt? (root.under names) = some e ↔
      Admits (root.under names) ∧ spot.entry.below? names = some e := by
  rw [entryAt?_eq_some_iff, ← Spot.entry_of_steps]
  constructor
  · intro hfound
    obtain ⟨found, hfind, rfl⟩ := hfound
    obtain ⟨hadmits, hsteps⟩ := (find_under_eq_ok_iff hroot h names).mp hfind
    exact ⟨hadmits, by rw [hsteps]; rfl⟩
  · intro hbelow
    obtain ⟨hadmits, hentry⟩ := hbelow
    cases hsteps : (nameSegments names).foldlM Spot.step spot with
    | error fault =>
      rw [hsteps] at hentry
      cases hentry
    | ok found =>
      rw [hsteps] at hentry
      exact ⟨found, (find_under_eq_ok_iff hroot h names).mpr ⟨hadmits, hsteps⟩,
        Option.some.inj hentry⟩

end Disk

end ObserverLint
