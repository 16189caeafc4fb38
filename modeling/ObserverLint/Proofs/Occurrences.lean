import Mathlib.Data.List.Infix
import Mathlib.Data.List.TakeWhile
import ObserverLint.Text.Blank
import ObserverLint.Text.Search

namespace ObserverLint.Text

theorem after?_eq_some_iff {pattern cs rest : List Char} :
    after? pattern cs = some rest ↔ cs = pattern ++ rest := by
  induction pattern generalizing cs with
  | nil => simp [after?]
  | cons p pattern ih =>
    cases cs with
    | nil => simp [after?]
    | cons c cs =>
      by_cases hc : p = c
      · simp [after?, hc, ih]
      · have hne : c ≠ p := fun h => hc h.symm
        simp [after?, hc, hne]

/-- The pattern stands in the text after `front` and before `rest`, and nowhere earlier. -/
structure FirstAt (pattern cs front rest : List Char) : Prop where
  split : cs = front ++ pattern ++ rest
  first : ∀ earlier later, cs = earlier ++ pattern ++ later → front.length ≤ earlier.length

theorem FirstAt.unique {pattern cs front rest front' rest' : List Char}
    (h : FirstAt pattern cs front rest) (h' : FirstAt pattern cs front' rest') :
    front = front' ∧ rest = rest' := by
  have hle := h.first front' rest' h'.split
  have hge := h'.first front rest h.split
  have hsplit : front ++ (pattern ++ rest) = front' ++ (pattern ++ rest') := by
    rw [← List.append_assoc, ← List.append_assoc, ← h.split, ← h'.split]
  obtain ⟨hfront, hrest⟩ := List.append_inj hsplit (by omega)
  exact ⟨hfront, List.append_cancel_left hrest⟩

/-- The first occurrence stays the first one, whatever is put behind the text. -/
theorem FirstAt.append {pattern cs front rest : List Char} (h : FirstAt pattern cs front rest)
    (tail : List Char) : FirstAt pattern (cs ++ tail) front (rest ++ tail) where
  split := by rw [h.split, List.append_assoc _ rest]
  first := by
    intro earlier later hlater
    by_contra hshort
    -- An earlier occurrence would end inside the text itself.
    have hlength : (earlier ++ pattern).length ≤ cs.length := by
      rw [h.split]
      simp only [List.length_append]
      omega
    have hleft : earlier ++ pattern <+: cs ++ tail := ⟨later, hlater.symm⟩
    obtain ⟨inside, hinside⟩ :=
      List.prefix_of_prefix_length_le hleft (List.prefix_append cs tail) hlength
    exact hshort (h.first earlier inside hinside.symm)

theorem cut?_eq_none_iff {pattern cs : List Char} : cut? pattern cs = none ↔ ¬ pattern <:+: cs := by
  induction cs with
  | nil => cases pattern <;> simp [cut?, after?]
  | cons c cs ih =>
    rw [cut?, List.infix_cons_iff]
    cases hafter : after? pattern (c :: cs) with
    | some rest =>
      have hfront : pattern <+: c :: cs := ⟨rest, (after?_eq_some_iff.mp hafter).symm⟩
      simp [hfront]
    | none =>
      have hfront : ¬ pattern <+: c :: cs := by
        rintro ⟨rest, hrest⟩
        rw [after?_eq_some_iff.mpr hrest.symm] at hafter
        cases hafter
      simp [hfront, ih]

theorem firstAt_of_cut? {pattern cs front rest : List Char}
    (h : cut? pattern cs = some (front, rest)) : FirstAt pattern cs front rest := by
  induction cs generalizing front with
  | nil =>
    obtain ⟨found, hfound, heq⟩ := Option.map_eq_some_iff.mp h
    cases heq
    exact ⟨after?_eq_some_iff.mp hfound, fun _ _ _ => Nat.zero_le _⟩
  | cons c cs ih =>
    rw [cut?] at h
    cases hafter : after? pattern (c :: cs) with
    | some found =>
      rw [hafter] at h
      cases h
      exact ⟨after?_eq_some_iff.mp hafter, fun _ _ _ => Nat.zero_le _⟩
    | none =>
      rw [hafter] at h
      obtain ⟨⟨inner, found⟩, hcut, heq⟩ := Option.map_eq_some_iff.mp h
      cases heq
      have hinner := ih hcut
      refine ⟨by rw [hinner.split]; rfl, ?_⟩
      intro earlier later hlater
      cases earlier with
      | nil =>
        have hfound : after? pattern (c :: cs) = some later := after?_eq_some_iff.mpr hlater
        rw [hafter] at hfound
        cases hfound
      | cons d earlier =>
        have hle := hinner.first earlier later (List.cons.inj hlater).2
        simpa using hle

/-- Cutting a text finds the first occurrence. -/
theorem cut?_eq_some_iff {pattern cs front rest : List Char} :
    cut? pattern cs = some (front, rest) ↔ FirstAt pattern cs front rest := by
  constructor
  · exact firstAt_of_cut?
  · intro h
    cases hcut : cut? pattern cs with
    | none => exact absurd ⟨front, rest, h.split.symm⟩ (cut?_eq_none_iff.mp hcut)
    | some found =>
      obtain ⟨hfront, hrest⟩ := h.unique (firstAt_of_cut? hcut)
      rw [hfront, hrest]

/-- A character that the pattern does not hold can be put at the end and makes no occurrence. -/
theorem cut?_concat {pattern : List Char} {c : Char} (hc : c ∉ pattern) (hne : pattern ≠ [])
    (cs : List Char) :
    cut? pattern (cs ++ [c]) =
      (cut? pattern cs).map fun (front, rest) => (front, rest ++ [c]) := by
  cases hcut : cut? pattern cs with
  | some found => exact cut?_eq_some_iff.mpr ((cut?_eq_some_iff.mp hcut).append [c])
  | none =>
    apply cut?_eq_none_iff.mpr
    intro hinfix
    rcases List.infix_concat_iff.mp hinfix with hend | hinside
    · rcases List.suffix_concat_iff.mp hend with hnil | ⟨front, rfl, -⟩
      · exact hne hnil
      · exact hc (by simp)
    · exact cut?_eq_none_iff.mp hcut hinside

theorem before_of_firstAt {pattern cs front rest : List Char} (h : FirstAt pattern cs front rest) :
    before pattern cs = front := by
  rw [before, cut?_eq_some_iff.mpr h]

/-- A single character first occurs where it is not in front. -/
theorem firstAt_singleton {c : Char} {front rest : List Char} (h : c ∉ front) :
    FirstAt [c] (front ++ c :: rest) front rest where
  split := by simp
  first := by
    intro earlier later hlater
    by_contra hshort
    have hlength : (earlier ++ [c]).length ≤ front.length := by
      rw [List.length_append, List.length_singleton]
      omega
    have hleft : earlier ++ [c] <+: front ++ c :: rest := ⟨later, hlater.symm⟩
    have hin : earlier ++ [c] <+: front :=
      List.prefix_of_prefix_length_le hleft (List.prefix_append _ _) hlength
    exact h (hin.subset (by simp))

theorem not_mem_of_firstAt_singleton {c : Char} {cs front rest : List Char}
    (h : FirstAt [c] cs front rest) : c ∉ front := by
  intro hc
  obtain ⟨earlier, later, hfront⟩ := List.append_of_mem hc
  have hle := h.first earlier (later ++ [c] ++ rest) (by rw [h.split, hfront]; simp)
  rw [hfront, List.length_append, List.length_cons] at hle
  omega

/-- A character that the pattern does not hold keeps apart what stands before and after it. -/
theorem infix_append_cons_iff {pattern : List Char} {c : Char} (hc : c ∉ pattern)
    (hne : pattern ≠ []) {cs ds : List Char} :
    pattern <:+: cs ++ c :: ds ↔ pattern <:+: cs ∨ pattern <:+: ds := by
  have hfront : ∀ part, part <+: c :: ds → part ≠ [] → c ∈ part := by
    intro part hpart hpartne
    rcases List.prefix_cons_iff.mp hpart with rfl | ⟨rest, rfl, -⟩
    · exact absurd rfl hpartne
    · exact List.mem_cons_self
  rw [List.infix_append_iff_ne_nil, List.infix_cons_iff]
  constructor
  · rintro (hleft | (hhere | hright) | ⟨_, part, -, hpart, rfl, -, hstraddles⟩)
    · exact Or.inl hleft
    · exact absurd (hfront _ hhere hne) hc
    · exact Or.inr hright
    · exact absurd (List.mem_append_right _ (hfront _ hstraddles hpart)) hc
  · rintro (hleft | hright)
    · exact Or.inl hleft
    · exact Or.inr (Or.inl (Or.inr hright))

theorem infix_append_of_not_mem {p : Char} {pattern cs ds : List Char} (h : p ∉ cs) :
    p :: pattern <:+: cs ++ ds ↔ p :: pattern <:+: ds := by
  induction cs with
  | nil => rfl
  | cons c cs ih =>
    have hc : p ≠ c := fun heq => h (heq ▸ List.mem_cons_self)
    have hcs : p ∉ cs := fun hmem => h (List.mem_cons_of_mem _ hmem)
    rw [List.cons_append, List.infix_cons_iff, ih hcs, List.cons_prefix_cons]
    simp [hc]

theorem infix_append_of_not_mem_right {q : Char} {pattern cs ds : List Char} (h : q ∉ ds) :
    pattern ++ [q] <:+: cs ++ ds ↔ pattern ++ [q] <:+: cs := by
  have hreverse : q ∉ ds.reverse := fun hmem => h (List.mem_reverse.mp hmem)
  rw [← List.reverse_infix, ← @List.reverse_infix _ _ cs, List.reverse_append,
    List.reverse_append]
  exact infix_append_of_not_mem hreverse

/-- Two different characters first occur together where they are not in front. -/
theorem firstAt_pair {a b : Char} (hne : a ≠ b) {front : List Char} (h : ¬ [a, b] <:+: front)
    (rest : List Char) : FirstAt [a, b] (front ++ [a, b] ++ rest) front rest where
  split := rfl
  first := by
    intro earlier later hlater
    by_contra hshort
    rw [List.append_assoc front] at hlater
    have hleft : earlier ++ [a, b] <+: front ++ ([a, b] ++ rest) := ⟨later, hlater.symm⟩
    by_cases hinside : earlier.length + 2 ≤ front.length
    · have hin : earlier ++ [a, b] <+: front := by
        apply List.prefix_of_prefix_length_le hleft (List.prefix_append _ _)
        simpa using hinside
      exact h (List.IsInfix.trans ⟨earlier, [], by simp⟩ hin.isInfix)
    · -- The first character would be the last of the front, and the second one the first again.
      have hlength : front.length = earlier.length + 1 := by omega
      have hearlier : earlier <+: front := by
        apply List.prefix_of_prefix_length_le (List.IsPrefix.trans ⟨[a, b], rfl⟩ hleft)
          (List.prefix_append _ _)
        omega
      obtain ⟨last, rfl⟩ := hearlier
      obtain ⟨c, rfl⟩ : ∃ c, last = [c] := List.length_eq_one_iff.mp (by simpa using hlength)
      simp only [List.append_assoc, List.append_cancel_left_eq, List.cons_append,
        List.nil_append, List.cons.injEq] at hlater
      exact hne hlater.2.1

def AllBlank (cs : List Char) : Prop := ∀ c ∈ cs, isBlank c = true

instance (cs : List Char) : Decidable (AllBlank cs) :=
  decidable_of_iff (cs.all isBlank = true) List.all_eq_true

theorem allBlank_append {cs ds : List Char} (hc : AllBlank cs) (hd : AllBlank ds) :
    AllBlank (cs ++ ds) :=
  List.forall_mem_append.mpr ⟨hc, hd⟩

theorem not_mem_of_allBlank {cs : List Char} (h : AllBlank cs) {c : Char}
    (hc : isBlank c = false) : c ∉ cs := by
  intro hmem
  rw [h c hmem] at hc
  cases hc

theorem trimStart_blank_append {lead : List Char} (h : AllBlank lead) (cs : List Char) :
    trimStart (lead ++ cs) = trimStart cs :=
  List.dropWhile_append_of_pos h

theorem trimStart_append_cons {c : Char} (hc : isBlank c = false) (cs ds : List Char) :
    trimStart (cs ++ c :: ds) = trimStart cs ++ c :: ds := by
  induction cs with
  | nil => simp [trimStart, hc]
  | cons d cs ih =>
    by_cases hd : isBlank d = true
    · have hlead : AllBlank [d] := List.forall_mem_singleton.mpr hd
      have hboth := trimStart_blank_append hlead (cs ++ c :: ds)
      have hcs := trimStart_blank_append hlead cs
      rw [List.singleton_append] at hboth hcs
      rw [List.cons_append, hboth, hcs, ih]
    · simp [trimStart, hd]

theorem trimEnd_eq (cs : List Char) : trimEnd cs = (trimStart cs.reverse).reverse := rfl

theorem trimEnd_append_blank {trail : List Char} (h : AllBlank trail) (cs : List Char) :
    trimEnd (cs ++ trail) = trimEnd cs := by
  have hreverse : AllBlank trail.reverse := fun c hc => h c (List.mem_reverse.mp hc)
  rw [trimEnd_eq, List.reverse_append, trimStart_blank_append hreverse, trimEnd_eq]

theorem trimEnd_append_cons {c : Char} (hc : isBlank c = false) (cs ds : List Char) :
    trimEnd (cs ++ c :: ds) = cs ++ c :: trimEnd ds := by
  have hreverse : (cs ++ c :: ds).reverse = ds.reverse ++ c :: cs.reverse := by simp
  rw [trimEnd_eq, hreverse, trimStart_append_cons hc, trimEnd_eq]
  simp

theorem exists_trimStart (cs : List Char) : ∃ lead, AllBlank lead ∧ cs = lead ++ trimStart cs :=
  ⟨cs.takeWhile isBlank, fun _ hc => List.mem_takeWhile_imp hc,
    List.takeWhile_append_dropWhile.symm⟩

theorem exists_trimEnd (cs : List Char) : ∃ trail, AllBlank trail ∧ cs = trimEnd cs ++ trail := by
  obtain ⟨lead, hlead, hcs⟩ := exists_trimStart cs.reverse
  refine ⟨lead.reverse, fun c hc => hlead c (List.mem_reverse.mp hc), ?_⟩
  rw [trimEnd_eq, ← List.reverse_append, ← hcs, List.reverse_reverse]

/-- Trimming takes away blanks only. -/
theorem exists_trim (cs : List Char) :
    ∃ lead trail, AllBlank lead ∧ AllBlank trail ∧ cs = lead ++ trim cs ++ trail := by
  obtain ⟨lead, hlead, hstart⟩ := exists_trimStart cs
  obtain ⟨trail, htrail, hend⟩ := exists_trimEnd (trimStart cs)
  refine ⟨lead, trail, hlead, htrail, ?_⟩
  rw [trim, List.append_assoc, ← hend, ← hstart]

theorem trim_blank_append {lead : List Char} (h : AllBlank lead) (cs : List Char) :
    trim (lead ++ cs) = trim cs := by
  rw [trim, trimStart_blank_append h, trim]

theorem trimStart_eq_nil {cs : List Char} (h : AllBlank cs) : trimStart cs = [] := by
  have hnil := trimStart_blank_append h []
  rwa [List.append_nil] at hnil

theorem trim_append_blank {trail : List Char} (h : AllBlank trail) (cs : List Char) :
    trim (cs ++ trail) = trim cs := by
  by_cases hcs : AllBlank cs
  · rw [trim, trim, trimStart_eq_nil hcs, trimStart_eq_nil (allBlank_append hcs h)]
  · -- Trimming the start stops inside the text, so it leaves what follows alone.
    simp only [AllBlank, not_forall] at hcs
    obtain ⟨c, hmem, hc⟩ := hcs
    obtain ⟨front, back, rfl⟩ := List.append_of_mem hmem
    rw [trim, trim, List.append_assoc, List.cons_append, trimStart_append_cons (by simpa using hc),
      trimStart_append_cons (by simpa using hc), ← List.cons_append, ← List.append_assoc,
      trimEnd_append_blank h]

theorem trim_trimEnd (cs : List Char) : trim (trimEnd cs) = trim cs := by
  obtain ⟨trail, htrail, hcs⟩ := exists_trimEnd cs
  conv_rhs => rw [hcs, trim_append_blank htrail]

/-- What neither begins nor ends with a blank is not changed by trimming. -/
theorem trim_eq_self {cs : List Char} (hfirst : ∀ c, cs.head? = some c → isBlank c = false)
    (hlast : ∀ c, cs.getLast? = some c → isBlank c = false) : trim cs = cs := by
  have hstart : trimStart cs = cs := by
    cases cs with
    | nil => rfl
    | cons c cs => simp [trimStart, hfirst c rfl]
  have hend : trimEnd cs = cs := by
    rw [trimEnd_eq]
    cases hreverse : cs.reverse with
    | nil => rw [List.reverse_eq_nil_iff.mp hreverse]; rfl
    | cons c ds =>
      have hc : isBlank c = false := hlast c (by rw [List.getLast?_eq_head?_reverse, hreverse]; rfl)
      have hstop : trimStart (c :: ds) = c :: ds := by simp [trimStart, hc]
      rw [hstop, ← hreverse, List.reverse_reverse]
  rw [trim, hstart, hend]

theorem split_ne_nil (separator : Char) (cs : List Char) : split separator cs ≠ [] := by
  cases cs with
  | nil => simp [split]
  | cons c cs =>
    rw [split]
    split
    · simp
    · split <;> simp

theorem map_trim_split_blank_cons {separator c : Char} (hc : isBlank c = true)
    (hne : c ≠ separator) (cs : List Char) :
    (split separator (c :: cs)).map trim = (split separator cs).map trim := by
  have hlead : AllBlank [c] := List.forall_mem_singleton.mpr hc
  rw [split, if_neg hne]
  cases hparts : split separator cs with
  | nil => exact absurd hparts (split_ne_nil separator cs)
  | cons part parts => rw [List.map_cons, List.map_cons, ← trim_blank_append hlead part]; rfl

/-- Blanks in front of a list make no difference to the parts, once those are trimmed. -/
theorem map_trim_split_blank_append {separator : Char} (hseparator : isBlank separator = false)
    {lead : List Char} (h : AllBlank lead) (cs : List Char) :
    (split separator (lead ++ cs)).map trim = (split separator cs).map trim := by
  induction lead with
  | nil => rfl
  | cons c lead ih =>
    have hc : isBlank c = true := h c List.mem_cons_self
    have hne : c ≠ separator := by
      rintro rfl
      rw [hc] at hseparator
      cases hseparator
    rw [List.cons_append, map_trim_split_blank_cons hc hne]
    exact ih fun d hd => h d (List.mem_cons_of_mem _ hd)

theorem split_of_not_mem {separator : Char} {part : List Char} (h : separator ∉ part) :
    split separator part = [part] := by
  induction part with
  | nil => rfl
  | cons c part ih =>
    have hc : c ≠ separator := fun heq => h (heq ▸ List.mem_cons_self)
    have hpart : separator ∉ part := fun hmem => h (List.mem_cons_of_mem _ hmem)
    rw [split, if_neg hc, ih hpart]

theorem split_append_cons {separator : Char} {part : List Char} (h : separator ∉ part)
    (cs : List Char) : split separator (part ++ separator :: cs) = part :: split separator cs := by
  induction part with
  | nil => rw [List.nil_append, split, if_pos rfl]
  | cons c part ih =>
    have hc : c ≠ separator := fun heq => h (heq ▸ List.mem_cons_self)
    have hpart : separator ∉ part := fun hmem => h (List.mem_cons_of_mem _ hmem)
    rw [List.cons_append, split, if_neg hc, ih hpart]

/-- Splitting undoes joining, if the separator is in none of the parts. -/
theorem split_intercalate {separator : Char} {parts : List (List Char)} (hne : parts ≠ [])
    (h : ∀ part ∈ parts, separator ∉ part) :
    split separator ([separator].intercalate parts) = parts := by
  induction parts with
  | nil => exact absurd rfl hne
  | cons part parts ih =>
    obtain ⟨hpart, hparts⟩ := List.forall_mem_cons.mp h
    by_cases hnil : parts = []
    · rw [hnil, List.intercalate_singleton, split_of_not_mem hpart]
    · rw [List.intercalate_cons_of_ne_nil hnil, List.append_assoc, List.singleton_append,
        split_append_cons hpart, ih hnil hparts]

theorem not_mem_intercalate {c separator : Char} (hne : c ≠ separator) {parts : List (List Char)}
    (h : ∀ part ∈ parts, c ∉ part) : c ∉ [separator].intercalate parts := by
  induction parts with
  | nil => simp
  | cons part parts ih =>
    obtain ⟨hpart, hparts⟩ := List.forall_mem_cons.mp h
    by_cases hnil : parts = []
    · rwa [hnil, List.intercalate_singleton]
    · rw [List.intercalate_cons_of_ne_nil hnil]
      simp [hpart, hne, ih hparts]

theorem not_infix_intercalate {pattern : List Char} {separator : Char} (hc : separator ∉ pattern)
    (hne : pattern ≠ []) {parts : List (List Char)} (h : ∀ part ∈ parts, ¬ pattern <:+: part) :
    ¬ pattern <:+: [separator].intercalate parts := by
  induction parts with
  | nil => simpa using hne
  | cons part parts ih =>
    obtain ⟨hpart, hparts⟩ := List.forall_mem_cons.mp h
    by_cases hnil : parts = []
    · rwa [hnil, List.intercalate_singleton]
    · rw [List.intercalate_cons_of_ne_nil hnil, List.append_assoc, List.singleton_append,
        infix_append_cons_iff hc hne, not_or]
      exact ⟨hpart, ih hparts⟩

end ObserverLint.Text
