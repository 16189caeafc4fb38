import ObserverLint.Proofs.Asides

namespace ObserverLint

namespace Possibility

theorem any_eq_yes_iff {ps : List Possibility} : any ps = .yes ↔ .yes ∈ ps := by
  unfold any
  split
  · rename_i hyes
    exact ⟨fun _ => hyes, fun _ => rfl⟩
  · rename_i hyes
    split <;> simp [hyes]

theorem any_eq_no_iff {ps : List Possibility} : any ps = .no ↔ ps ≠ [] ∧ ∀ p ∈ ps, p = .no := by
  unfold any
  split
  · rename_i hyes
    simp only [reduceCtorEq, false_iff]
    rintro ⟨-, hall⟩
    cases hall _ hyes
  · split
    · rename_i hall
      exact ⟨fun _ => hall, fun _ => rfl⟩
    · rename_i hall
      simp only [reduceCtorEq, hall]

theorem eq_of_iff {p q : Possibility} (hyes : p = .yes ↔ q = .yes) (hno : p = .no ↔ q = .no) :
    p = q := by
  cases p <;> cases q <;> simp_all

end Possibility

namespace Shape

theorem ext_on {s t : Shape} (h : ∀ aspect, s.on aspect = t.on aspect) : s = t := by
  rcases s with ⟨observable, function⟩
  rcases t with ⟨observable', function'⟩
  exact congrArg₂ Shape.mk (h .observable) (h .function)

theorem any_on (parts : List Shape) (aspect : Aspect) :
    (any parts).on aspect = .any (parts.map fun s => s.on aspect) := by
  cases aspect <;> rfl

variable {parts others : List Shape} {aspect : Aspect}

theorem any_on_eq_yes_iff : (any parts).on aspect = .yes ↔ ∃ s ∈ parts, s.on aspect = .yes := by
  rw [any_on, Possibility.any_eq_yes_iff, List.mem_map]

theorem any_on_eq_no_iff :
    (any parts).on aspect = .no ↔ parts ≠ [] ∧ ∀ s ∈ parts, s.on aspect = .no := by
  rw [any_on, Possibility.any_eq_no_iff, List.forall_mem_map, ne_eq, ne_eq, List.map_eq_nil_iff]

/-- The order of the parts does not matter, and neither does how often each is there. -/
theorem any_congr (h : ∀ s, s ∈ parts ↔ s ∈ others) : any parts = any others := by
  have hnil : parts = [] ↔ others = [] := by
    rw [List.eq_nil_iff_forall_not_mem, List.eq_nil_iff_forall_not_mem]
    simp only [h]
  refine ext_on fun aspect => Possibility.eq_of_iff ?_ ?_
  · simp only [any_on_eq_yes_iff, h]
  · simp only [any_on_eq_no_iff, h, ne_eq, hnil]

theorem any_singleton (s : Shape) : any [s] = s := by
  refine ext_on fun aspect => Possibility.eq_of_iff ?_ ?_
  · simp [any_on_eq_yes_iff]
  · simp [any_on_eq_no_iff]

/-- Parts of a part count as parts. -/
theorem any_cons_any (h : parts ≠ []) : any (any parts :: others) = any (parts ++ others) := by
  refine ext_on fun aspect => Possibility.eq_of_iff ?_ ?_
  · simp only [any_on_eq_yes_iff, List.exists_mem_cons_iff, List.mem_append, or_and_right,
      exists_or]
  · simp only [any_on_eq_no_iff, List.forall_mem_cons, List.forall_mem_append, ne_eq, h,
      not_false_eq_true, reduceCtorEq, true_and, List.append_eq_nil_iff, false_and]

end Shape

namespace Kind

def hasMembers : Kind → Bool
  | unionType | intersectionType => true
  | _ => false

def holdsType : Kind → Bool
  | annotatedType | parenthesizedType => true
  | _ => false

end Kind

namespace Node

def parts (n : Node) : List Node :=
  if n.kind.hasMembers then n.namedChildren
  else if n.kind.holdsType then n.namedChildren.take 1
  else []

/-- Taking the type `n` apart as far as possible leaves the type `leaf`, perhaps among others. -/
inductive Leaf : Node → Node → Prop
  | self {n : Node} : n.parts = [] → Leaf n n
  | part {n c leaf : Node} : c ∈ n.parts → Leaf c leaf → Leaf n leaf

/-- The types have the same members, but for the order in which they stand, the way in which they
are grouped, the parentheses around them and the number of times each of them is there. -/
inductive Rearranged : Node → Node → Prop
  | refl (n : Node) : Rearranged n n
  | symm {n m : Node} : Rearranged n m → Rearranged m n
  | trans {n m o : Node} : Rearranged n m → Rearranged m o → Rearranged n o
  /-- `A | B` and `B | A` -/
  | reordered {n m : Node} : n.kind.hasMembers = true → m.kind.hasMembers = true →
      n.namedChildren.Perm m.namedChildren → Rearranged n m
  /-- `A | B` and `A | A | B` -/
  | repeated {n m c : Node} : n.kind.hasMembers = true → m.kind.hasMembers = true →
      c ∈ n.namedChildren → m.namedChildren = c :: n.namedChildren → Rearranged n m
  /-- a union in a union, and its members in its place -/
  | regrouped {n m inner : Node} {rest : List Node} : n.kind.hasMembers = true →
      m.kind.hasMembers = true → inner.kind.hasMembers = true → inner.namedChildren ≠ [] →
      n.namedChildren = inner :: rest → m.namedChildren = inner.namedChildren ++ rest →
      Rearranged n m
  /-- `(A)` and `A` -/
  | parenthesised {n c : Node} {rest : List Node} : n.kind.holdsType = true →
      n.namedChildren = c :: rest → Rearranged n c
  /-- the same with a member rearranged -/
  | member {n m c c' : Node} {rest : List Node} : n.kind.hasMembers = true →
      m.kind.hasMembers = true → n.namedChildren = c :: rest → m.namedChildren = c' :: rest →
      Rearranged c c' → Rearranged n m

section Leaves

variable {n leaf : Node}

theorem parts_subset_children (n : Node) : n.parts ⊆ n.children := by
  unfold parts
  split
  · exact List.filter_subset_self _
  · split
    · exact List.Subset.trans (List.take_subset _ _) (List.filter_subset_self _)
    · exact List.nil_subset _

theorem leaf_iff_of_parts_eq_nil (h : n.parts = []) : n.Leaf leaf ↔ leaf = n := by
  constructor
  · intro hleaf
    cases hleaf with
    | self => rfl
    | part hc =>
      rw [h] at hc
      cases hc
  · rintro rfl
    exact .self h

theorem leaf_iff_of_parts_ne_nil (h : n.parts ≠ []) :
    n.Leaf leaf ↔ ∃ c ∈ n.parts, c.Leaf leaf := by
  constructor
  · intro hleaf
    cases hleaf with
    | self hnone => exact absurd hnone h
    | part hc hrest => exact ⟨_, hc, hrest⟩
  · rintro ⟨c, hc, hleaf⟩
    exact .part hc hleaf

end Leaves

end Node

namespace Oracle

section Parts

variable {source : String} {n : Node}

theorem typeShape_of_hasMembers (h : n.kind.hasMembers = true) :
    typeShape source n = .any (n.namedChildren.map (typeShape source)) := by
  rcases n with ⟨label, ns⟩
  have hkind : label.kind.hasMembers = true := h
  cases hlabel : label.kind
  case unionType | intersectionType =>
    simp only [typeShape, hlabel, typeShapes_eq]
    rfl
  all_goals simp [hlabel, Kind.hasMembers] at hkind

theorem typeShape_of_holdsType (h : n.kind.holdsType = true) :
    typeShape source n = (n.namedChildren.head?.map (typeShape source)).getD .unknown := by
  rcases n with ⟨label, ns⟩
  have hkind : label.kind.holdsType = true := h
  cases hlabel : label.kind
  case annotatedType | parenthesizedType =>
    simp only [typeShape, hlabel, firstTypeShape_eq, Node.namedChildren, List.head?_filter,
      Node.children_mk]
  all_goals simp [hlabel, Kind.holdsType] at hkind

theorem typeShape_of_parts (h : n.parts ≠ []) :
    typeShape source n = .any (n.parts.map (typeShape source)) := by
  unfold Node.parts at h ⊢
  split at h
  · rename_i hkind
    rw [if_pos hkind, typeShape_of_hasMembers hkind]
  · rename_i hmembers
    split at h
    · rename_i hkind
      rw [if_neg hmembers, if_pos hkind, typeShape_of_holdsType hkind]
      cases hnamed : n.namedChildren with
      | nil => rw [hnamed] at h; exact absurd rfl h
      | cons c rest => exact (Shape.any_singleton _).symm
    · exact absurd rfl h

/-- Nothing is known about a type that should be put together from others and is not. -/
theorem typeShape_of_parts_eq_nil
    (hkind : n.kind.hasMembers = true ∨ n.kind.holdsType = true) (h : n.parts = []) :
    typeShape source n = .unknown := by
  unfold Node.parts at h
  by_cases hmembers : n.kind.hasMembers = true
  · rw [if_pos hmembers] at h
    rw [typeShape_of_hasMembers hmembers, h]
    rfl
  · have hholds := hkind.resolve_left hmembers
    rw [if_neg hmembers, if_pos hholds, List.take_eq_nil_iff] at h
    rw [typeShape_of_holdsType hholds, h.resolve_left Nat.one_ne_zero]
    rfl

end Parts

section Leaves

variable {source : String} {aspect : Aspect}

theorem typeShape_on_eq_yes_iff (n : Node) :
    (typeShape source n).on aspect = .yes ↔
      ∃ leaf, n.Leaf leaf ∧ (typeShape source leaf).on aspect = .yes := by
  induction n using Node.induction_children with
  | step n ih =>
    by_cases hparts : n.parts = []
    · simp only [Node.leaf_iff_of_parts_eq_nil hparts, exists_eq_left]
    · have hin (c : Node) (hc : c ∈ n.parts) := ih c (n.parts_subset_children hc)
      rw [typeShape_of_parts hparts, Shape.any_on_eq_yes_iff]
      simp only [Node.leaf_iff_of_parts_ne_nil hparts]
      constructor
      · rintro ⟨s, hs, hyes⟩
        obtain ⟨c, hc, rfl⟩ := List.mem_map.mp hs
        obtain ⟨leaf, hleaf, hyes⟩ := (hin c hc).mp hyes
        exact ⟨leaf, ⟨c, hc, hleaf⟩, hyes⟩
      · rintro ⟨leaf, ⟨c, hc, hleaf⟩, hyes⟩
        exact ⟨_, List.mem_map_of_mem hc, (hin c hc).mpr ⟨leaf, hleaf, hyes⟩⟩

theorem typeShape_on_eq_no_iff (n : Node) :
    (typeShape source n).on aspect = .no ↔
      ∀ leaf, n.Leaf leaf → (typeShape source leaf).on aspect = .no := by
  induction n using Node.induction_children with
  | step n ih =>
    by_cases hparts : n.parts = []
    · simp only [Node.leaf_iff_of_parts_eq_nil hparts, forall_eq]
    · have hin (c : Node) (hc : c ∈ n.parts) := ih c (n.parts_subset_children hc)
      rw [typeShape_of_parts hparts, Shape.any_on_eq_no_iff, List.forall_mem_map]
      simp only [Node.leaf_iff_of_parts_ne_nil hparts, ne_eq, List.map_eq_nil_iff, hparts,
        not_false_eq_true, true_and]
      constructor
      · rintro hall leaf ⟨c, hc, hleaf⟩
        exact (hin c hc).mp (hall c hc) leaf hleaf
      · intro hall c hc
        exact (hin c hc).mpr fun leaf hleaf => hall leaf ⟨c, hc, hleaf⟩

/-- Types whose leaves are alike describe the same values. -/
theorem typeShape_eq_of_leaves {other : String} {n m : Node}
    (h : ∀ leaf, n.Leaf leaf → ∃ leaf', m.Leaf leaf' ∧
      typeShape source leaf = typeShape other leaf')
    (h' : ∀ leaf', m.Leaf leaf' → ∃ leaf, n.Leaf leaf ∧
      typeShape source leaf = typeShape other leaf') :
    typeShape source n = typeShape other m := by
  refine Shape.ext_on fun aspect => Possibility.eq_of_iff ?_ ?_
  · rw [typeShape_on_eq_yes_iff, typeShape_on_eq_yes_iff]
    constructor
    · rintro ⟨leaf, hleaf, hyes⟩
      obtain ⟨leaf', hleaf', heq⟩ := h leaf hleaf
      exact ⟨leaf', hleaf', heq ▸ hyes⟩
    · rintro ⟨leaf', hleaf', hyes⟩
      obtain ⟨leaf, hleaf, heq⟩ := h' leaf' hleaf'
      exact ⟨leaf, hleaf, heq ▸ hyes⟩
  · rw [typeShape_on_eq_no_iff, typeShape_on_eq_no_iff]
    constructor
    · intro hall leaf' hleaf'
      obtain ⟨leaf, hleaf, heq⟩ := h' leaf' hleaf'
      exact heq ▸ hall leaf hleaf
    · intro hall leaf hleaf
      obtain ⟨leaf', hleaf', heq⟩ := h leaf hleaf
      exact heq ▸ hall leaf' hleaf'

theorem typeShape_eq_of_rearranged {n m : Node} (h : n.Rearranged m) :
    typeShape source n = typeShape source m := by
  induction h with
  | refl => rfl
  | symm _ ih => exact ih.symm
  | trans _ _ ih ih' => exact ih.trans ih'
  | reordered hn hm hperm =>
    rw [typeShape_of_hasMembers hn, typeShape_of_hasMembers hm]
    exact Shape.any_congr fun s => (hperm.map _).mem_iff
  | repeated hn hm hc heq =>
    rw [typeShape_of_hasMembers hn, typeShape_of_hasMembers hm, heq, List.map_cons]
    refine Shape.any_congr fun s => ?_
    rw [List.mem_cons, or_iff_right_of_imp]
    rintro rfl
    exact List.mem_map_of_mem hc
  | regrouped hn hm hinner hsome heq heq' =>
    rw [typeShape_of_hasMembers hn, typeShape_of_hasMembers hm, heq, heq', List.map_cons,
      typeShape_of_hasMembers hinner, List.map_append, Shape.any_cons_any]
    rwa [ne_eq, List.map_eq_nil_iff]
  | parenthesised hn heq =>
    rw [typeShape_of_holdsType hn, heq]
    rfl
  | member hn hm heq heq' _ ih =>
    rw [typeShape_of_hasMembers hn, typeShape_of_hasMembers hm, heq, heq', List.map_cons,
      List.map_cons, ih]

end Leaves

/-- What a type says goes by its leaves: yes if one of them says so, no if all of them do. So it
does not matter how the members of a union are arranged, and a union is ruled out only if it has
members and all of them are. -/
theorem type_answers_by_leaves (source : String) (n : Node) :
    (∀ aspect,
      ((typeShape source n).on aspect = .yes ↔
        ∃ leaf, n.Leaf leaf ∧ (typeShape source leaf).on aspect = .yes) ∧
      ((typeShape source n).on aspect = .no ↔
        ∀ leaf, n.Leaf leaf → (typeShape source leaf).on aspect = .no) ∧
      ((typeShape source n).on aspect = .unknown ↔
        (¬ ∃ leaf, n.Leaf leaf ∧ (typeShape source leaf).on aspect = .yes) ∧
          ¬ ∀ leaf, n.Leaf leaf → (typeShape source leaf).on aspect = .no)) ∧
    (∀ leaf, n.Leaf leaf → leaf.kind.hasMembers = true ∨ leaf.kind.holdsType = true →
      typeShape source leaf = .unknown) ∧
    (∀ m, n.Rearranged m → typeShape source n = typeShape source m) ∧
    (∀ other m,
      (∀ leaf, n.Leaf leaf → ∃ leaf', m.Leaf leaf' ∧
        typeShape source leaf = typeShape other leaf') →
      (∀ leaf', m.Leaf leaf' → ∃ leaf, n.Leaf leaf ∧
        typeShape source leaf = typeShape other leaf') →
      typeShape source n = typeShape other m) ∧
    (n.kind.hasMembers = true → ∀ aspect,
      ((typeShape source n).on aspect = .no ↔ n.namedChildren ≠ [] ∧
        ∀ c ∈ n.namedChildren, (typeShape source c).on aspect = .no)) := by
  refine ⟨?_, ?_, fun _ => typeShape_eq_of_rearranged, fun _ _ => typeShape_eq_of_leaves, ?_⟩
  · intro aspect
    refine ⟨typeShape_on_eq_yes_iff n, typeShape_on_eq_no_iff n, ?_⟩
    rw [← typeShape_on_eq_yes_iff, ← typeShape_on_eq_no_iff]
    cases (typeShape source n).on aspect <;> simp
  · intro leaf hleaf hkind
    refine typeShape_of_parts_eq_nil hkind ?_
    induction hleaf with
    | self hnone => exact hnone
    | part _ _ ih => exact ih hkind
  · intro hmembers aspect
    rw [typeShape_of_hasMembers hmembers, Shape.any_on_eq_no_iff, List.forall_mem_map, ne_eq,
      ne_eq, List.map_eq_nil_iff]

def groupedMembers : List Node := [
  .mk { kind := .typeIdentifier, start := 1, stop := 2 } [],
  .mk { kind := .predefinedType, start := 3, stop := 9 } [],
  .mk { kind := .typeIdentifier, start := 11, stop := 18 } []]

/-- `(A|string)|Subject` -/
def groupedUnion : Node :=
  .mk { kind := .unionType, stop := 18 } [
    .mk { kind := .parenthesizedType, stop := 10 } [
      .mk { kind := .other "(", named := false, stop := 1 } [],
      .mk { kind := .unionType, start := 1, stop := 9 } (groupedMembers.take 2),
      .mk { kind := .other ")", named := false, start := 9, stop := 10 } []],
    .mk { kind := .other "|", named := false, start := 10, stop := 11 } [],
    groupedMembers.get ⟨2, by decide⟩]

/-- The types of `(A|string)|Subject` from the last to the first, one of them twice. -/
def reversedUnion : Node :=
  .mk { kind := .unionType } (groupedMembers.get ⟨0, by decide⟩ :: groupedMembers.reverse)

/-- The one stream makes the union a stream, and the one unknown type keeps open whether it is a
function, in the one arrangement and in the other. -/
theorem groupedUnion_as_reversed :
    groupedUnion.Rearranged reversedUnion ∧
      groupedUnion.Leaf (groupedMembers.get ⟨1, by decide⟩) ∧
      typeShape "(A|string)|Subject" groupedUnion = ⟨.yes, .unknown⟩ ∧
      typeShape "(A|string)|Subject" groupedUnion =
        typeShape "(A|string)|Subject" reversedUnion := by
  let inner : Node := .mk { kind := .unionType, start := 1, stop := 9 } (groupedMembers.take 2)
  let opened : Node := .mk { kind := .unionType } [inner, groupedMembers.get ⟨2, by decide⟩]
  let flat : Node := .mk { kind := .unionType } groupedMembers
  let reversed : Node := .mk { kind := .unionType } groupedMembers.reverse
  have hopened : groupedUnion.Rearranged opened := .member rfl rfl rfl rfl (.parenthesised rfl rfl)
  have hflat : opened.Rearranged flat :=
    @Node.Rearranged.regrouped _ _ inner _ rfl rfl rfl (List.cons_ne_nil _ _) rfl rfl
  have hreversed : flat.Rearranged reversed :=
    .reordered rfl rfl (List.reverse_perm groupedMembers).symm
  have hrepeated : reversed.Rearranged reversedUnion :=
    .repeated rfl rfl (List.mem_of_getElem? (i := 2) rfl) rfl
  have hall := ((hopened.trans hflat).trans hreversed).trans hrepeated
  have hleaf : groupedUnion.Leaf (groupedMembers.get ⟨1, by decide⟩) :=
    .part List.mem_cons_self (.part List.mem_cons_self
      (.part (List.mem_cons_of_mem _ List.mem_cons_self) (.self rfl)))
  exact ⟨hall, hleaf, by decide,
    (type_answers_by_leaves _ groupedUnion).2.2.1 _ hall⟩

end Oracle

end ObserverLint
