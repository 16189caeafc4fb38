import ObserverLint.Proofs.Relocation

namespace ObserverLint

open ObserverLint.Path Traversal

/-- Step by step up from one place to another, with the places left behind. -/
inductive Climbs {α : Type} (up? : α → Option α) : α → List α → α → Prop
  | here (a : α) : Climbs up? a [] a
  | up {a b c : α} {passed : List α} :
      up? a = some b → Climbs up? b passed c → Climbs up? a (a :: passed) c

namespace Climbs

variable {α β : Type} {up? : α → Option α} {a b c : α} {passed others : List α}

/-- There is only one way up. -/
theorem mem_or_mem (h : Climbs up? a passed b) (h' : Climbs up? a others c) :
    b ∈ others ∨ (passed = others ∧ b = c) ∨ c ∈ passed := by
  induction h generalizing others with
  | here a =>
    cases h' with
    | here => exact Or.inr (Or.inl ⟨rfl, rfl⟩)
    | up _ _ => exact Or.inl List.mem_cons_self
  | up hup _ ih =>
    cases h' with
    | here => exact Or.inr (Or.inr List.mem_cons_self)
    | up hup' hrest =>
      obtain rfl := Option.some.inj (hup.symm.trans hup')
      rcases ih hrest with hfirst | ⟨rfl, rfl⟩ | hsecond
      · exact Or.inl (List.mem_cons_of_mem _ hfirst)
      · exact Or.inr (Or.inl ⟨rfl, rfl⟩)
      · exact Or.inr (Or.inr (List.mem_cons_of_mem _ hsecond))

theorem kept {Kept : α → Prop} (hkept : ∀ a b, Kept a → up? a = some b → Kept b)
    (h : Climbs up? a passed b) (ha : Kept a) : Kept b := by
  induction h with
  | here a => exact ha
  | up hup _ ih => exact ih (hkept _ _ ha hup)

/-- A way up is seen as a way up by every view that sees each step as one. -/
theorem map_iff {f : α → β} {above? : β → Option β} {Kept : α → Prop}
    (hview : ∀ a, Kept a → (up? a).map f = above? (f a))
    (hkept : ∀ a b, Kept a → up? a = some b → Kept b) (ha : Kept a) {seen : List β} {d : β} :
    Climbs above? (f a) seen d ↔
      ∃ passed c, Climbs up? a passed c ∧ seen = passed.map f ∧ d = f c := by
  constructor
  · generalize hfirst : f a = x
    intro h
    induction h generalizing a with
    | here x => exact ⟨[], a, .here a, rfl, hfirst.symm⟩
    | up hup _ ih =>
      rw [← hfirst, ← hview a ha] at hup
      obtain ⟨b, hb, hnext⟩ := Option.map_eq_some_iff.mp hup
      obtain ⟨passed, c, hclimbs, rfl, rfl⟩ := ih (hkept a b ha hb) hnext
      exact ⟨a :: passed, c, .up hb hclimbs, by rw [List.map_cons, hfirst], rfl⟩
  · rintro ⟨passed, c, h, rfl, rfl⟩
    induction h with
    | here a => exact .here _
    | @up a b _ _ hup _ ih =>
      refine .up (b := f b) ?_ (ih (hkept a b ha hup))
      rw [← hview a ha, hup, Option.map_some]

end Climbs

namespace Path

theorem length_filterMap_segments (cs : List Char) :
    ((segments cs).filterMap component?).length ≤ cs.length := by
  induction cs with
  | nil => exact Nat.le_refl 0
  | cons c cs ih =>
    obtain ⟨s, ss, hs⟩ := List.exists_cons_of_ne_nil (segments_ne_nil cs)
    rw [hs] at ih
    by_cases hc : c = '/'
    · rw [segments, if_pos hc, hs, List.filterMap_cons_none rfl, List.length_cons]
      omega
    · rw [segments_cons_of_ne hc hs]
      have hfirst := List.length_filterMap_le component? [c :: s]
      have hrest : (ss.filterMap component?).length ≤ ((s :: ss).filterMap component?).length :=
        ((List.sublist_cons_self s ss).filterMap component?).length_le
      rw [← List.singleton_append, List.filterMap_append, List.length_append, List.length_cons]
      rw [List.length_singleton] at hfirst
      omega

theorem length_components_le (p : Path) : p.components.length ≤ p.text.toList.length := by
  cases htext : p.text.toList with
  | nil =>
    rw [components, parts, htext]
    exact Nat.le_refl 0
  | cons c cs =>
    have hne : p.text.toList ≠ [] := by simp [htext]
    obtain ⟨s, ss, hs⟩ := List.exists_cons_of_ne_nil (segments_ne_nil cs)
    have hbound := length_filterMap_segments cs
    by_cases hc : c = '/'
    · have hsegments : segments p.text.toList = [] :: segments cs := by
        rw [htext, segments, if_pos hc]
      rw [components_of_segments hne hsegments, List.length_append, List.length_cons]
      change 1 + _ ≤ _
      omega
    · have hsegments : segments p.text.toList = (c :: s) :: ss := by
        rw [htext, segments_cons_of_ne hc hs]
      have hlead : (leadingComponents (c :: s)).length ≤ 1 := by
        unfold leadingComponents
        split_ifs <;> simp [Option.length_toList_le]
      have hrest : (ss.filterMap component?).length ≤ ((s :: ss).filterMap component?).length :=
        ((List.sublist_cons_self s ss).filterMap component?).length_le
      rw [hs] at hbound
      rw [components_of_segments hne hsegments, List.length_append, List.length_cons]
      omega

theorem length_le_of_climbs {p dir : Path} {passed : List Path} (h : Climbs parent? p passed dir) :
    passed.length ≤ p.text.toList.length := by
  have hlength : passed.length + dir.components.length = p.components.length := by
    induction h with
    | here p => exact Nat.zero_add _
    | up hup _ ih =>
      obtain ⟨c, hc⟩ := components_parent? hup
      rw [hc, List.length_append, List.length_cons, List.length_singleton]
      omega
  have hbound := length_components_le p
  omega

theorem isName_of_component? {segment : List Char} {name : String}
    (h : component? segment = some (.name name)) (hslash : '/' ∉ segment) : IsName name := by
  have hname : segment = name.toList := by
    have hsame := h
    unfold component? at hsame
    split at hsame <;> cases hsame
    exact String.toList_ofList.symm
  rw [hname] at h hslash
  exact ⟨h, hslash⟩

def topmost : Path := ⟨"/"⟩

theorem joinSegments_segments (cs : List Char) : joinSegments (segments cs) = cs := by
  induction cs with
  | nil => rfl
  | cons c cs ih =>
    obtain ⟨s, ss, hs⟩ := List.exists_cons_of_ne_nil (segments_ne_nil cs)
    rw [hs] at ih
    by_cases hc : c = '/'
    · rw [segments, if_pos hc, hs, joinSegments, ih, hc, List.nil_append]
    · rw [segments_cons_of_ne hc hs]
      cases ss with
      | nil => exact congrArg (c :: ·) ih
      | cons t ss => exact congrArg (c :: ·) ih

theorem joinSegments_eq_intercalate (ss : List (List Char)) :
    joinSegments ss = ['/'].intercalate ss := by
  induction ss with
  | nil => rfl
  | cons s ss ih =>
    cases ss with
    | nil => exact List.intercalate_singleton.symm
    | cons t ss =>
      rw [joinSegments, ih, List.intercalate_cons_cons, List.append_assoc, List.singleton_append]

theorem under_concat (p : Path) (names : List Name) (name : Name) :
    p.under (names ++ [name]) = (p.under names).join ⟨name.1⟩ := by
  rw [under, List.foldl_append]
  rfl

theorem isAbsolute_topmost : topmost.isAbsolute = true := by decide

theorem stem_topmost : topmost.stem = [[]] := by
  have hends : topmost.text.endsWith "/" = true := endsWith_slash_iff.mpr (by decide)
  rw [stem, if_pos hends]
  decide

theorem ofParts_nameSegments (names : List Name) :
    ofParts ⟨.root, nameSegments names⟩ = topmost.under names := by
  by_cases hnil : names = []
  · rw [hnil]
    rfl
  · have hsegments := segments_under (text_ne_nil_of_isAbsolute isAbsolute_topmost) hnil
    have htext := joinSegments_segments (topmost.under names).text.toList
    have hne : nameSegments names ≠ [] := mt List.map_eq_nil_iff.mp hnil
    obtain ⟨s, ss, hs⟩ := List.exists_cons_of_ne_nil hne
    rw [hsegments, stem_topmost, List.singleton_append, hs, joinSegments, List.nil_append] at htext
    rw [hs]
    change Path.mk (String.ofList ('/' :: joinSegments (s :: ss))) = _
    rw [htext, String.ofList_toList]

theorem parent?_topmost : topmost.parent? = none := by decide

theorem parent?_under_topmost (names : List Name) (name : Name) :
    (topmost.under (names ++ [name])).parent? = some (topmost.under names) := by
  have hparts := parts_under isAbsolute_topmost stem_topmost
    (List.append_ne_nil_of_right_ne_nil names (List.cons_ne_nil name []))
  have hsegments : nameSegments (names ++ [name]) = nameSegments names ++ [name.1.toList] := by
    rw [nameSegments, List.map_append]
    rfl
  rw [parent?, hparts, List.nil_append, trimEnd_nameSegments, hsegments, List.reverse_concat]
  simp only [List.reverse_reverse, trimEnd_nameSegments, ofParts_nameSegments]

end Path

theorem Entry.below?_append (e : Entry) (names others : List Name) :
    e.below? (names ++ others) = (e.below? names).bind fun below => below.below? others := by
  induction names generalizing e with
  | nil => rfl
  | cons name names ih =>
    rw [List.cons_append, Entry.below?, Entry.below?]
    split
    · rfl
    · rw [Option.bind_assoc]
      exact congrArg _ (funext ih)

namespace Spot

/-- The directory around a spot; there is none around the topmost. -/
def outside? (s : Spot) : Option Spot := if s.names = [] then none else some s.up

inductive Reached (top : Entry) : List Name → Spot → Prop
  | top : Reached top [] ⟨top, [], []⟩
  | down {s : Spot} {names : List Name} {name : Name} {e : Entry} : Reached top names s →
      ¬ maxNameBytes < name.1.utf8ByteSize → s.entry.child? name.1 = some e →
      Reached top (names ++ [name]) ⟨e, name.1 :: s.names, s.entry :: s.above⟩

section Reached

variable {top : Entry} {s t : Spot} {names : List Name}

theorem Reached.up (h : Reached top names s) : ∃ fewer, Reached top fewer s.up := by
  cases h with
  | top => exact ⟨[], .top⟩
  | down hs _ _ => exact ⟨_, hs⟩

theorem exists_reached_of_step (hs : ∃ names, Reached top names s) {segment : List Char}
    (hslash : '/' ∉ segment) (hstep : s.step segment = .ok t) : ∃ names, Reached top names t := by
  obtain ⟨names, h⟩ := hs
  rcases Spot.step_cases hstep with ⟨-, rfl⟩ | ⟨name, e, hname, hshort, hchild, rfl⟩ | ⟨-, rfl⟩
  · exact h.up
  · have hdown : Reached top (names ++ [⟨name, isName_of_component? hname hslash⟩]) _ :=
      h.down hshort hchild
    exact ⟨_, hdown⟩
  · exact ⟨names, h⟩

theorem Reached.names_eq (h : Reached top names s) : s.names.reverse = names.map Subtype.val := by
  induction h with
  | top => rfl
  | down _ _ _ ih => rw [List.reverse_cons, ih, List.map_append, List.map_singleton]

theorem Reached.path_eq (h : Reached top names s) : s.path = topmost.under names := by
  have htext : "/" ++ "/".intercalate (names.map Subtype.val) =
      String.ofList ('/' :: joinSegments (nameSegments names)) := by
    apply String.toList_injective
    simp only [String.toList_append, String.toList_intercalate, List.map_map,
      String.toList_ofList, joinSegments_eq_intercalate]
    rfl
  rw [Spot.path, h.names_eq, htext, ← ofParts_nameSegments]
  rfl

theorem Reached.below?_eq (h : Reached top names s) : top.below? names = some s.entry := by
  induction h with
  | top => rfl
  | down _ hshort hchild ih =>
    rw [Entry.below?_append, ih, Option.bind_some, Entry.below?, if_neg hshort, hchild]
    rfl

/-- The directory around a spot has the parent of its path. -/
theorem Reached.path_outside? (h : Reached top names s) :
    s.outside?.map Spot.path = s.path.parent? := by
  rw [h.path_eq]
  cases h with
  | top => exact parent?_topmost.symm
  | down hs _ _ =>
    rw [parent?_under_topmost, ← hs.path_eq]
    rfl

theorem exists_reached_of_outside? (hs : ∃ names, Reached top names s)
    (ht : s.outside? = some t) : ∃ names, Reached top names t := by
  obtain ⟨names, hreached⟩ := hs
  unfold outside? at ht
  split at ht
  · cases ht
  · obtain rfl := Option.some.inj ht
    exact hreached.up

/-- The way up from the path of a spot goes through the paths of the directories around it. -/
theorem climbs_path_iff (hs : ∃ names, Reached top names s) {passed : List Path} {dir : Path} :
    Climbs parent? s.path passed dir ↔
      ∃ spots around, Climbs outside? s spots around ∧ passed = spots.map Spot.path ∧
        dir = around.path := by
  have hview : ∀ s, (∃ names, Reached top names s) →
      s.outside?.map Spot.path = s.path.parent? := by
    rintro s ⟨names, hreached⟩
    exact hreached.path_outside?
  exact Climbs.map_iff hview (fun _ _ => exists_reached_of_outside?) hs

end Reached

end Spot

namespace Disk

variable {disk : Disk} {p : Path} {spot : Spot}

theorem exists_reached (h : disk.find p = .ok spot) :
    ∃ names, Spot.Reached disk.top names spot := by
  have hkept : ∀ s t, ∀ segment ∈ segments (disk.current.join p).text.toList,
      (∃ names, Spot.Reached disk.top names s) → s.step segment = .ok t →
      ∃ names, Spot.Reached disk.top names t := by
    intro s t segment hsegment hs
    exact Spot.exists_reached_of_step hs (no_slash_of_mem_segments hsegment)
  exact Spot.kept_of_steps hkept (steps_of_find h) ⟨[], .top⟩

/-- Already the first segment of any path needs a directory at the top. -/
theorem find_topmost (h : disk.find p = .ok spot) :
    disk.find topmost = .ok ⟨disk.top, [], []⟩ := by
  have hsteps := steps_of_find h
  obtain ⟨s, ss, hs⟩ := List.exists_cons_of_ne_nil
    (segments_ne_nil (disk.current.join p).text.toList)
  rw [hs, List.foldlM_cons] at hsteps
  obtain ⟨next, hfirst, -⟩ := bind_eq_ok_iff.mp hsteps
  cases htop : disk.top with
  | file contents =>
    rw [htop] at hfirst
    cases hfirst
  | directory entries =>
    refine (find_eq_ok_iff isAbsolute_topmost).mpr ⟨⟨by decide, by decide⟩, ?_⟩
    rw [htop]
    rfl

theorem isFile_join_iff {names : List Name} (h : Spot.Reached disk.top names spot)
    (htop : disk.find topmost = .ok ⟨disk.top, [], []⟩) (name : Name) :
    disk.isFile (spot.path.join ⟨name.1⟩) = true ↔
      Admits (spot.path.join ⟨name.1⟩) ∧ name.1.utf8ByteSize ≤ Spot.maxNameBytes ∧
        ∃ contents, spot.entry.child? name.1 = some (.file contents) := by
  rw [isFile_iff, h.path_eq, ← under_concat]
  simp only [entryAt?_under_eq_some_iff isAbsolute_topmost htop, Entry.below?_append, h.below?_eq,
    Option.bind_some, exists_and_left, Entry.below?]
  by_cases hlong : Spot.maxNameBytes < name.1.utf8ByteSize
  · simp [hlong, Nat.not_le.mpr hlong]
  · simp [hlong, Nat.not_lt.mp hlong]

end Disk

end ObserverLint
