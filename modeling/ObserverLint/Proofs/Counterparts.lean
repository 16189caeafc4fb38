import ObserverLint.Proofs.CursorWalk
import ObserverLint.Proofs.InStep

namespace ObserverLint

open InStep

namespace Kind

def isWord : Kind → Bool
  | identifier | shorthandPattern | predefinedType | typeIdentifier | nestedTypeIdentifier => true
  | _ => false

/-- The fields whose text is read, whatever stands in them. -/
def wordFields : Kind → List Field
  | classDeclaration | abstractClassDeclaration | functionDeclaration
  | generatorFunctionDeclaration | genericType => [.name]
  | publicFieldDefinition | fieldDefinition => [.name, .property]
  | importSpecifier => [.alias, .name]
  | forInStatement => [.kind]
  | newExpression => [.constructor]
  | memberExpression => [.property]
  | _ => []

end Kind

namespace Node

/-- A comment that can be left out: it stands in no field and has nothing inside. -/
def isAside (n : Node) : Bool := n.kind == .comment && n.field.isNone && n.children.isEmpty

def properChildren (n : Node) : List Node := n.children.filter fun c => !c.isAside

def sameWords (source other : String) (n m : Node) : Bool :=
  (!n.kind.isWord || n.text source == m.text other) &&
    n.kind.wordFields.all fun f => (n.child? f).map (text source) == (m.child? f).map (text other)

mutual

/-- Whether two trees, each over its own text, differ in nothing but comments: all other nodes have
the same kinds and fields, come in the same order and have the same text wherever it is read. -/
def alike (source other : String) : Node → Node → Bool
  | .mk label children, m =>
    label.kind == m.kind && label.field == m.field && label.named == m.named &&
      sameWords source other (.mk label children) m &&
      allAlike source other children m.properChildren

def allAlike (source other : String) : List Node → List Node → Bool
  | [], ms => ms.isEmpty
  | n :: ns, ms =>
    if n.isAside then allAlike source other ns ms
    else
      match ms with
      | [] => false
      | m :: ms => alike source other n m && allAlike source other ns ms

end

theorem allAlike_iff {source other : String} {ns ms : List Node} :
    allAlike source other ns ms = true ↔
      List.Forall₂ (fun n m => alike source other n m = true)
        (ns.filter fun n => !n.isAside) ms := by
  induction ns generalizing ms with
  | nil => simp [allAlike]
  | cons n ns ih =>
    cases haside : n.isAside with
    | true => cases ms <;> simp [allAlike, haside, ih]
    | false => cases ms <;> simp [allAlike, haside, ih]

structure Alike (source other : String) (n m : Node) : Prop where
  kind : n.kind = m.kind
  field : n.field = m.field
  named : n.named = m.named
  text : n.kind.isWord = true → n.text source = m.text other
  texts : ∀ f ∈ n.kind.wordFields,
    (n.child? f).map (Node.text source) = (m.child? f).map (Node.text other)
  children : List.Forall₂ (fun c d => alike source other c d = true) n.properChildren
    m.properChildren

theorem sameWords_iff {source other : String} {n m : Node} :
    sameWords source other n m = true ↔
      (n.kind.isWord = true → n.text source = m.text other) ∧ ∀ f ∈ n.kind.wordFields,
        (n.child? f).map (Node.text source) = (m.child? f).map (Node.text other) := by
  rw [sameWords, Bool.and_eq_true, List.all_eq_true]
  refine and_congr ?_ (by simp only [beq_iff_eq])
  cases n.kind.isWord <;> simp

theorem alike_iff {source other : String} {n m : Node} :
    alike source other n m = true ↔ Alike source other n m := by
  rcases n with ⟨label, ns⟩
  rw [alike, Bool.and_eq_true, Bool.and_eq_true, Bool.and_eq_true, Bool.and_eq_true,
    sameWords_iff, allAlike_iff, beq_iff_eq, beq_iff_eq, beq_iff_eq]
  constructor
  · intro h
    obtain ⟨⟨⟨⟨hkind, hfield⟩, hnamed⟩, htext, htexts⟩, hchildren⟩ := h
    exact ⟨hkind, hfield, hnamed, htext, htexts, hchildren⟩
  · intro h
    exact ⟨⟨⟨⟨h.kind, h.field⟩, h.named⟩, h.text, h.texts⟩, h.children⟩

theorem isAside_iff {n : Node} :
    n.isAside = true ↔ n.kind = .comment ∧ n.field = none ∧ n.children = [] := by
  simp [isAside, and_assoc]

/-- Induction from the children of a node to the node. -/
theorem induction_children {motive : Node → Prop}
    (step : ∀ n, (∀ c ∈ n.children, motive c) → motive n) (n : Node) : motive n :=
  step n fun c _ => induction_children step c
termination_by sizeOf n
decreasing_by
  rcases n with ⟨label, ns⟩
  have hlt : sizeOf c < sizeOf ns := List.sizeOf_lt_of_mem ‹_›
  simp only [Node.mk.sizeOf_spec]
  omega

theorem Alike.symm {source other : String} {n m : Node} (h : Alike source other n m) :
    Alike other source m n := by
  induction n using induction_children generalizing m with
  | step n ih =>
    obtain ⟨hkind, hfield, hnamed, htext, htexts, hchildren⟩ := h
    refine ⟨hkind.symm, hfield.symm, hnamed.symm, ?_, ?_, ?_⟩
    · rw [← hkind]
      exact fun hword => (htext hword).symm
    · rw [← hkind]
      exact fun f hf => (htexts f hf).symm
    · refine ((with_mem hchildren).imp ?_).flip
      intro c d hcd
      exact alike_iff.mpr (ih c (List.mem_filter.mp hcd.1).1 (alike_iff.mp hcd.2.2))

end Node

namespace Place

def properChildren (p : Place) : List Place := p.children.filter fun c => !c.node.isAside

theorem map_node_siblings (address : Address) (above : List Node) (i : Nat) (ns : List Node) :
    (siblings address above i ns).map node = ns := by
  induction ns generalizing i with
  | nil => rfl
  | cons n ns ih => rw [siblings, List.map_cons, ih]

theorem map_node_children (p : Place) : p.children.map node = p.node.children :=
  map_node_siblings _ _ _ _

theorem map_node_properChildren (p : Place) :
    p.properChildren.map node = p.node.properChildren := by
  rw [properChildren, Node.properChildren, ← map_node_children, List.filter_map]
  rfl

theorem map_node_child? (p : Place) (f : Field) : (p.child? f).map node = p.node.child? f := by
  rw [child?, Node.child?, ← map_node_children, List.find?_map]
  rfl

theorem properChildren_nodup (p : Place) : p.properChildren.Nodup := by
  have hchildren : p.children.Nodup :=
    (siblings_pairwise p.address (p.node :: p.above) 0 p.node.children).imp fun hne heq =>
      hne (congrArg address heq)
  exact hchildren.filter _

theorem mem_children_of_proper {p c : Place} {i : Nat} (h : p.properChildren[i]? = some c) :
    c ∈ p.children :=
  (List.mem_filter.mp (List.mem_of_getElem? h)).1

theorem root_not_child {t : Node} {p : Place} : root t ∉ p.children := by
  intro h
  obtain ⟨k, n, -, heq⟩ := mem_children.mp h
  cases congrArg address heq

theorem node_mem_children {p c : Place} (h : c ∈ p.children) : c.node ∈ p.node.children := by
  rw [← map_node_children]
  exact List.mem_map_of_mem h

/-- The same steps lead from `r` to the first place and from `s` to the second, if comments are not
counted. -/
inductive Counterpart (r s : Place) : Place → Place → Prop
  | refl : Counterpart r s r s
  | child {p q c d : Place} {i : Nat} : Counterpart r s p q → p.properChildren[i]? = some c →
      q.properChildren[i]? = some d → Counterpart r s c d

namespace Counterpart

variable {r s p q : Place}

theorem symm (h : Counterpart r s p q) : Counterpart s r q p := by
  induction h with
  | refl => exact .refl
  | child _ hc hd ih => exact ih.child hd hc

theorem within (h : Counterpart r s p q) : Within r p := by
  induction h with
  | refl => exact .refl
  | child _ hc _ ih => exact ih.child (mem_children_of_proper hc)

section Root

variable {t u : Node}

/-- No place has two counterparts. -/
theorem unique {q' : Place} (h : Counterpart (root t) (root u) p q)
    (h' : Counterpart (root t) (root u) p q') : q = q' := by
  induction h generalizing q' with
  | refl =>
    cases h' with
    | refl => rfl
    | child _ hc _ => exact absurd (mem_children_of_proper hc) root_not_child
  | @child p q c d i _ hc hd ih =>
    cases h' with
    | refl => exact absurd (mem_children_of_proper hc) root_not_child
    | @child p' _ _ _ j hp' hc' hd' =>
      -- The parent is the same, and so is the number among its children.
      have hparent : p = p' := Option.some.inj <|
        (parent?_child (mem_children_of_proper hc)).symm.trans
          (parent?_child (mem_children_of_proper hc'))
      subst hparent
      have hlt : i < p.properChildren.length := (List.getElem?_eq_some_iff.mp hc).1
      have hindex : i = j :=
        (List.getElem?_inj hlt p.properChildren_nodup).mp (hc.trans hc'.symm)
      rw [← hindex, ← ih hp', hd] at hd'
      exact Option.some.inj hd'

theorem address_eq_iff {p' q' : Place} (h : Counterpart (root t) (root u) p q)
    (h' : Counterpart (root t) (root u) p' q') :
    p.address = p'.address ↔ q.address = q'.address := by
  constructor
  · intro heq
    obtain rfl := eq_of_address_eq h.within h'.within heq
    rw [h.unique h']
  · intro heq
    obtain rfl := eq_of_address_eq h.symm.within h'.symm.within heq
    rw [h.symm.unique h'.symm]

theorem ancestors (h : Counterpart (root t) (root u) p q) :
    List.Forall₂ (Counterpart (root t) (root u)) p.ancestors q.ancestors := by
  induction h with
  | refl => exact .nil
  | child hp hc hd ih =>
    rw [ancestors_child (mem_children_of_proper hc), ancestors_child (mem_children_of_proper hd)]
    exact .cons hp ih

theorem selfAndAncestors (h : Counterpart (root t) (root u) p q) :
    List.Forall₂ (Counterpart (root t) (root u)) p.selfAndAncestors q.selfAndAncestors :=
  .cons h h.ancestors

theorem parent? (h : Counterpart (root t) (root u) p q) :
    Option.Rel (Counterpart (root t) (root u)) p.parent? q.parent? := by
  rw [Place.parent?, Place.parent?, List.head?_eq_getElem?, List.head?_eq_getElem?]
  exact rel_getElem? h.ancestors 0

end Root

section Alike

variable {source other : String} (hroot : Node.Alike source other r.node s.node)

include hroot

theorem alike (h : Counterpart r s p q) : Node.Alike source other p.node q.node := by
  induction h with
  | refl => exact hroot
  | @child p q c d i _ hc hd ih =>
    have hchildren := ih.children
    rw [← map_node_properChildren, ← map_node_properChildren, List.forall₂_map_left_iff,
      List.forall₂_map_right_iff] at hchildren
    obtain ⟨hi, rfl⟩ := List.getElem?_eq_some_iff.mp hc
    obtain ⟨hj, rfl⟩ := List.getElem?_eq_some_iff.mp hd
    exact Node.alike_iff.mp (hchildren.get hi hj)

theorem kind_eq (h : Counterpart r s p q) : p.kind = q.kind := (h.alike hroot).kind

theorem properChildren (h : Counterpart r s p q) :
    List.Forall₂ (Counterpart r s) p.properChildren q.properChildren := by
  have hlength : p.properChildren.length = q.properChildren.length := by
    have heq := (h.alike hroot).children.length_eq
    rwa [← map_node_properChildren, ← map_node_properChildren, List.length_map,
      List.length_map] at heq
  refine List.forall₂_iff_get.mpr ⟨hlength, ?_⟩
  intro i hi hj
  exact h.child (List.getElem?_eq_getElem hi) (List.getElem?_eq_getElem hj)

/-- A comment stands in no field, so it is not taken for the child in a field. -/
theorem child? (h : Counterpart r s p q) (f : Field) :
    Option.Rel (Counterpart r s) (p.child? f) (q.child? f) := by
  have hproper (x : Place) : x.child? f =
      x.properChildren.find? fun c => c.node.field == some f := by
    rw [Place.child?, Place.properChildren, List.find?_filter]
    congr 1
    funext c
    cases haside : c.node.isAside with
    | false => simp [beq_eq_decide]
    | true => simp [(Node.isAside_iff.mp haside).2.1]
  rw [hproper p, hproper q]
  refine rel_find? ?_ (h.properChildren hroot)
  intro c d hcd
  rw [(hcd.alike hroot).field]

theorem text_eq (h : Counterpart r s p q) (hword : p.kind.isWord = true) :
    p.text source = q.text other :=
  (h.alike hroot).text hword

/-- What stands in a field whose text is read has the same text. -/
theorem word? (h : Counterpart r s p q) (f : Field) (hf : f ∈ p.kind.wordFields) :
    Option.Rel (fun c d => Counterpart r s c d ∧ c.text source = d.text other) (p.child? f)
      (q.child? f) := by
  have hrel := h.child? hroot f
  have htexts := (h.alike hroot).texts f hf
  rw [← map_node_child?, ← map_node_child?] at htexts
  generalize p.child? f = x, q.child? f = y at hrel htexts
  cases hrel with
  | none => exact .none
  | some hcd => exact .some ⟨hcd, Option.some.inj htexts⟩

end Alike

end Counterpart

def code (p : Place) : List Place :=
  p :: (p.children.flatMap preorder).filter fun c => !c.node.isAside

theorem code_eq (p : Place) : p.code = p :: p.properChildren.flatMap code := by
  rw [code, List.filter_flatMap, properChildren, flatMap_filter]
  congr 2
  funext c
  cases haside : c.node.isAside with
  | false => simp [preorder_eq, haside, code]
  | true =>
    have hnone : c.children = [] := by
      rw [children, (Node.isAside_iff.mp haside).2.2, siblings]
    simp [preorder_eq, haside, hnone]

theorem foldl_preorder {α : Type} {f : α → Place → α}
    (hf : ∀ x c, c.node.isAside = true → f x c = x) (p : Place) (x : α) :
    p.preorder.foldl f x = p.code.foldl f x := by
  rw [preorder_eq, code, List.foldl_cons, List.foldl_cons, foldl_filter_of_fixed hf]

theorem filterMap_preorder {α : Type} {f : Place → Option α}
    (hf : ∀ c, c.node.isAside = true → f c = none) (p : Place) :
    p.preorder.filterMap f = p.code.filterMap f := by
  rw [preorder_eq, code, List.filterMap_cons, List.filterMap_cons, filterMap_filter_of_none hf]

theorem Counterpart.code {r s p q : Place} {source other : String}
    (hroot : Node.Alike source other r.node s.node) (h : Counterpart r s p q) :
    List.Forall₂ (Counterpart r s) p.code q.code := by
  induction p using induction_children generalizing q with
  | step p ih =>
    have hchildren := (List.forall₂_and_left _ _).mpr
      ⟨fun c hc => (List.mem_filter.mp hc).1, h.properChildren hroot⟩
    rw [code_eq, code_eq]
    exact .cons h (List.rel_flatMap hchildren fun c d hcd => ih c hcd.1 hcd.2)

end Place

end ObserverLint
