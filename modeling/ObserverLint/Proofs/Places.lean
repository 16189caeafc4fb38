import Mathlib.Data.List.Nodup
import Mathlib.Data.List.Infix
import ObserverLint.Tree.Node

namespace ObserverLint.Place

inductive Within (r : Place) : Place → Prop
  | refl : Within r r
  | child {p c : Place} : Within r p → c ∈ p.children → Within r c

theorem Within.trans {r p q : Place} (hp : Within r p) (hq : Within p q) : Within r q := by
  induction hq with
  | refl => exact hp
  | child _ hc ih => exact ih.child hc

theorem mem_siblings {address : Address} {above : List Node} {i : Nat} {ns : List Node}
    {c : Place} :
    c ∈ siblings address above i ns ↔
      ∃ k n, ns[k]? = some n ∧ c = ⟨(i + k) :: address, n, above⟩ := by
  induction ns generalizing i with
  | nil => simp [siblings]
  | cons m ns ih =>
    simp only [siblings, List.mem_cons, ih]
    constructor
    · rintro (rfl | ⟨k, n, hn, rfl⟩)
      · exact ⟨0, m, rfl, rfl⟩
      · exact ⟨k + 1, n, hn, by rw [Nat.add_right_comm, Nat.add_assoc]⟩
    · rintro ⟨k, n, hn, rfl⟩
      cases k with
      | zero =>
        obtain rfl : m = n := by simpa using hn
        exact Or.inl rfl
      | succ k => exact Or.inr ⟨k, n, hn, by rw [Nat.add_right_comm, Nat.add_assoc]⟩

theorem mem_children {p c : Place} :
    c ∈ p.children ↔
      ∃ k n, p.node.children[k]? = some n ∧ c = ⟨k :: p.address, n, p.node :: p.above⟩ := by
  simp only [children, mem_siblings, Nat.zero_add]

theorem ancestors_child {p c : Place} (h : c ∈ p.children) : c.ancestors = p :: p.ancestors := by
  obtain ⟨k, n, -, rfl⟩ := mem_children.mp h
  rfl

theorem selfAndAncestors_child {p c : Place} (h : c ∈ p.children) :
    c.selfAndAncestors = c :: p.selfAndAncestors := by
  rw [selfAndAncestors, ancestors_child h, selfAndAncestors]

theorem parent?_child {p c : Place} (h : c ∈ p.children) : c.parent? = some p := by
  rw [parent?, ancestors_child h, List.head?_cons]

theorem sizeOf_child_lt {p c : Place} (h : c ∈ p.children) : sizeOf c.node < sizeOf p.node := by
  obtain ⟨k, n, hn, rfl⟩ := mem_children.mp h
  rcases p with ⟨address, ⟨label, ns⟩, above⟩
  have hlt : sizeOf n < sizeOf ns := List.sizeOf_lt_of_mem (List.mem_of_getElem? hn)
  simp only [Node.mk.sizeOf_spec]
  omega

/-- Induction from the children of a place to the place. -/
theorem induction_children {motive : Place → Prop}
    (step : ∀ p, (∀ c ∈ p.children, motive c) → motive p) (p : Place) : motive p :=
  step p fun c _ => induction_children step c
termination_by sizeOf p.node
decreasing_by exact sizeOf_child_lt ‹_›

theorem child?_mem {p c : Place} {f : Field} (h : p.child? f = some c) : c ∈ p.children :=
  List.mem_of_find?_eq_some h

theorem preorderFrom_eq_flatMap (address : Address) (above : List Node) (i : Nat)
    (ns : List Node) :
    preorderFrom address above i ns = (siblings address above i ns).flatMap preorder := by
  induction ns generalizing i with
  | nil => rfl
  | cons n ns ih => rw [preorderFrom, siblings, List.flatMap_cons, ih, preorder]

theorem preorder_eq (p : Place) : p.preorder = p :: p.children.flatMap preorder := by
  rcases p with ⟨address, ⟨label, ns⟩, above⟩
  rw [preorder, preorderAt, preorderFrom_eq_flatMap]
  rfl

theorem within_of_mem_preorder {p q : Place} (h : q ∈ p.preorder) : Within p q := by
  induction p using induction_children with
  | step p ih =>
    rw [preorder_eq, List.mem_cons, List.mem_flatMap] at h
    rcases h with rfl | ⟨c, hc, hq⟩
    · exact .refl
    · exact (Within.refl.child hc).trans (ih c hc hq)

theorem child_mem_preorder {r p c : Place} (hp : p ∈ r.preorder) (hc : c ∈ p.children) :
    c ∈ r.preorder := by
  induction r using induction_children with
  | step r ih =>
    rw [preorder_eq, List.mem_cons, List.mem_flatMap] at hp ⊢
    rcases hp with rfl | ⟨d, hd, hp⟩
    · exact Or.inr ⟨c, hc, by rw [preorder_eq]; exact List.mem_cons_self⟩
    · exact Or.inr ⟨d, hd, ih d hd hp⟩

theorem mem_preorder {p q : Place} : q ∈ p.preorder ↔ Within p q := by
  constructor
  · exact within_of_mem_preorder
  · intro h
    induction h with
    | refl => rw [preorder_eq]; exact List.mem_cons_self
    | child _ hc ih => exact child_mem_preorder ih hc

theorem address_suffix_of_within {r p : Place} (h : Within r p) : r.address <:+ p.address := by
  induction h with
  | refl => exact List.suffix_rfl
  | child _ hc ih =>
    obtain ⟨k, n, -, rfl⟩ := mem_children.mp hc
    exact ih.trans (List.suffix_cons k _)

theorem siblings_pairwise (address : Address) (above : List Node) (i : Nat) (ns : List Node) :
    (siblings address above i ns).Pairwise fun a b => a.address ≠ b.address := by
  induction ns generalizing i with
  | nil => exact List.Pairwise.nil
  | cons n ns ih =>
    refine List.pairwise_cons.mpr ⟨?_, ih (i + 1)⟩
    intro c hc
    obtain ⟨k, m, -, rfl⟩ := mem_siblings.mp hc
    simp only [ne_eq, List.cons.injEq, and_true]
    omega

/-- Subtrees of two children of a place have no place in common. -/
theorem disjoint_preorder_of_siblings {p a b : Place} (ha : a ∈ p.children) (hb : b ∈ p.children)
    (hne : a.address ≠ b.address) : List.Disjoint a.preorder b.preorder := by
  intro q hqa hqb
  have hsa := address_suffix_of_within (mem_preorder.mp hqa)
  have hsb := address_suffix_of_within (mem_preorder.mp hqb)
  have hlen : a.address.length = b.address.length := by
    obtain ⟨i, m, -, rfl⟩ := mem_children.mp ha
    obtain ⟨j, n, -, rfl⟩ := mem_children.mp hb
    rfl
  -- Two suffixes of one address that are of the same length are the same.
  exact hne ((List.suffix_of_suffix_length_le hsa hsb hlen.le).eq_of_length hlen)

theorem not_mem_preorder_child {p c : Place} (h : c ∈ p.children) : p ∉ c.preorder := by
  intro hp
  have hlen := (address_suffix_of_within (mem_preorder.mp hp)).length_le
  obtain ⟨k, n, -, rfl⟩ := mem_children.mp h
  simp only [List.length_cons] at hlen
  omega

theorem preorder_nodup (p : Place) : p.preorder.Nodup := by
  induction p using induction_children with
  | step p ih =>
    rw [preorder_eq, List.nodup_cons]
    constructor
    · intro h
      obtain ⟨c, hc, hp⟩ := List.mem_flatMap.mp h
      exact not_mem_preorder_child hc hp
    · refine List.nodup_flatMap.mpr ⟨ih, ?_⟩
      refine List.Pairwise.imp_of_mem ?_ (siblings_pairwise p.address (p.node :: p.above) 0 _)
      intro a b ha hb hne
      exact disjoint_preorder_of_siblings ha hb hne

section Tree

variable {t : Node} {p q a c : Place}

theorem address_root_or_cons (h : Within (root t) p) :
    p = root t ∨ ∃ q k n, Within (root t) q ∧ q.node.children[k]? = some n ∧
      p = ⟨k :: q.address, n, q.node :: q.above⟩ := by
  cases h with
  | refl => exact Or.inl rfl
  | child hq hc =>
    obtain ⟨k, n, hn, rfl⟩ := mem_children.mp hc
    exact Or.inr ⟨_, k, n, hq, hn, rfl⟩

/-- The address tells a place apart from every other place of the tree. -/
theorem eq_of_address_eq (hp : Within (root t) p) (hq : Within (root t) q)
    (h : p.address = q.address) : p = q := by
  -- Down from the root: the same child number of the same parent, by induction.
  induction hp generalizing q with
  | refl =>
    rcases address_root_or_cons hq with rfl | ⟨r, k, n, -, -, rfl⟩
    · rfl
    · simp [root] at h
  | child _ hc ih =>
    obtain ⟨k, n, hn, rfl⟩ := mem_children.mp hc
    rcases address_root_or_cons hq with rfl | ⟨r, j, m, hr, hm, rfl⟩
    · simp [root] at h
    · obtain ⟨rfl, hrest⟩ := List.cons.inj h
      obtain rfl := ih hr hrest
      obtain rfl : n = m := Option.some.inj (hn.symm.trans hm)
      rfl

theorem mem_selfAndAncestors_of_within (h : Within a p) : a ∈ p.selfAndAncestors := by
  induction h with
  | refl => exact List.mem_cons_self
  | child _ hc ih =>
    rw [selfAndAncestors_child hc]
    exact List.mem_cons_of_mem _ ih

theorem within_of_mem_selfAndAncestors (hp : Within (root t) p) (h : a ∈ p.selfAndAncestors) :
    Within (root t) a ∧ Within a p := by
  induction hp with
  | refl =>
    obtain rfl : a = root t := by simpa [selfAndAncestors, ancestors, lineage, root] using h
    exact ⟨.refl, .refl⟩
  | child hq hc ih =>
    rw [selfAndAncestors_child hc, List.mem_cons] at h
    rcases h with rfl | h
    · exact ⟨hq.child hc, .refl⟩
    · exact ⟨(ih h).1, (ih h).2.child hc⟩

theorem within_of_mem_ancestors (hp : Within (root t) p) (h : a ∈ p.ancestors) :
    Within (root t) a :=
  (within_of_mem_selfAndAncestors hp (List.mem_cons_of_mem _ h)).1

theorem eq_or_suffix_of_suffix_child (ha : Within (root t) a) (hq : Within (root t) q)
    (hc : c ∈ q.children) (h : a.address <:+ c.address) : a = c ∨ a.address <:+ q.address := by
  have hwithin := hq.child hc
  obtain ⟨k, n, -, rfl⟩ := mem_children.mp hc
  rcases List.suffix_cons_iff.mp h with heq | hsuffix
  · exact Or.inl (eq_of_address_eq ha hwithin heq)
  · exact Or.inr hsuffix

theorem within_of_address_suffix (ha : Within (root t) a) (hp : Within (root t) p)
    (h : a.address <:+ p.address) : Within a p := by
  induction hp with
  | refl =>
    have hnil : a.address = (root t).address := List.suffix_nil.mp h
    rw [eq_of_address_eq ha .refl hnil]
    exact .refl
  | child hq hc ih =>
    rcases eq_or_suffix_of_suffix_child ha hq hc h with rfl | hsuffix
    · exact .refl
    · exact (ih hsuffix).child hc

theorem length_address_lt_of_mem_ancestors (hp : Within (root t) p) (h : a ∈ p.ancestors) :
    a.address.length < p.address.length := by
  cases hp with
  | refl => simp [ancestors, lineage, root] at h
  | child hq hc =>
    rw [ancestors_child hc] at h
    have hle := (address_suffix_of_within (within_of_mem_selfAndAncestors hq h).2).length_le
    obtain ⟨k, n, -, rfl⟩ := mem_children.mp hc
    rw [List.length_cons]
    omega

theorem parent?_eq_some (hc : Within (root t) c) (h : c.parent? = some p) :
    Within (root t) p ∧ c ∈ p.children := by
  cases hc with
  | refl => simp [parent?, ancestors, lineage, root] at h
  | child hq hmem =>
    obtain rfl := Option.some.inj ((parent?_child hmem).symm.trans h)
    exact ⟨hq, hmem⟩

end Tree

end ObserverLint.Place
