import ObserverLint.Proofs.Counterparts
import ObserverLint.Proofs.Introductions

namespace ObserverLint

open InStep

namespace Node

theorem not_isAside_of_kind {n : Node} (h : n.kind ≠ .comment) : (!n.isAside) = true := by
  simp [isAside, h]

theorem find?_children {n : Node} {f : Node → Bool}
    (h : (n.children.find? f).any isAside = false) :
    n.children.find? f = n.properChildren.find? f :=
  find?_filter_of_not_any h

theorem namedChildren_eq {n : Node} (h : n.namedChildren.any isAside = false) :
    n.namedChildren = n.properChildren.filter named :=
  filter_filter_of_not_any h

theorem find?_named_of_take {n : Node} (h : (n.namedChildren.take 2).any isAside = false) :
    (n.children.find? named).any isAside = false := by
  rw [← List.head?_filter, ← namedChildren]
  cases hnamed : n.namedChildren with
  | nil => rfl
  | cons c cs =>
    rw [hnamed, List.take_succ_cons, List.any_cons, Bool.or_eq_false_iff] at h
    exact h.1

theorem any_children {n : Node} {f : Node → Bool}
    (hf : ∀ c, f c = true → c.kind ≠ .comment) : n.children.any f = n.properChildren.any f :=
  any_filter_of_imp (fun c hc => not_isAside_of_kind (hf c hc)) n.children

/-- Whether a comment stands where the node is read. -/
def obstructed (n : Node) : Bool :=
  match n.kind with
  | .parenthesized | .satisfiesExpression | .nonNullExpression | .annotatedType
  | .parenthesizedType => (n.children.find? named).any isAside
  | .typeAssertion =>
    (n.children.find? fun c => c.named && c.kind != .typeArguments).any isAside
  | .asExpression => (n.namedChildren.take 2).any isAside
  | .unionType | .intersectionType => n.namedChildren.any isAside
  | _ => false

mutual

def clear : Node → Bool
  | .mk label children => !(Node.mk label children).obstructed && allClear children

def allClear : List Node → Bool
  | [] => true
  | n :: ns => n.clear && allClear ns

end

theorem allClear_iff {ns : List Node} : allClear ns = true ↔ ∀ n ∈ ns, n.clear = true := by
  induction ns with
  | nil => simp [allClear]
  | cons n ns ih => simp [allClear, ih]

theorem clear_iff {n : Node} :
    n.clear = true ↔ n.obstructed = false ∧ ∀ c ∈ n.children, c.clear = true := by
  rcases n with ⟨label, ns⟩
  rw [clear, Bool.and_eq_true, Bool.not_eq_true', allClear_iff]
  rfl

end Node

namespace Oracle

open Place (Counterpart root)

variable {source other : String}

theorem firstTypeShape_eq (source : String) (ns : List Node) :
    firstTypeShape source ns = ((ns.find? Node.named).map (typeShape source)).getD .unknown := by
  induction ns with
  | nil => rfl
  | cons n ns ih => cases h : n.named <;> simp [firstTypeShape, h, ih]

theorem typeShapes_eq (source : String) (ns : List Node) :
    typeShapes source ns = (ns.filter Node.named).map (typeShape source) := by
  induction ns with
  | nil => rfl
  | cons n ns ih => cases h : n.named <;> simp [typeShapes, h, ih]

theorem callSignature_eq {n m : Node} (h : Node.Alike source other n m) :
    (n.children.any fun c => c.named && c.kind == .callSignature) =
      m.children.any fun c => c.named && c.kind == .callSignature := by
  have hkind (c : Node) (hc : (c.named && c.kind == .callSignature) = true) :
      c.kind ≠ .comment := by
    simp_all
  rw [Node.any_children hkind, Node.any_children hkind]
  refine any_eq_any ?_ h.children
  intro c d hcd
  rw [(Node.alike_iff.mp hcd).kind, (Node.alike_iff.mp hcd).named]

section Types

variable {n m : Node}

theorem firstTypeShape_eq_of_read (h : List.Forall₂ (fun c d => c.named = d.named ∧
      typeShape source c = typeShape other d) n.properChildren m.properChildren)
    (hn : (n.children.find? Node.named).any Node.isAside = false)
    (hm : (m.children.find? Node.named).any Node.isAside = false) :
    firstTypeShape source n.children = firstTypeShape other m.children := by
  rw [firstTypeShape_eq, firstTypeShape_eq, Node.find?_children hn, Node.find?_children hm,
    option_map_eq (fun _ _ hcd => hcd.2) (rel_find? (fun _ _ hcd => hcd.1) h)]

theorem typeShapes_eq_of_read (h : List.Forall₂ (fun c d => c.named = d.named ∧
      typeShape source c = typeShape other d) n.properChildren m.properChildren)
    (hn : n.namedChildren.any Node.isAside = false)
    (hm : m.namedChildren.any Node.isAside = false) :
    typeShapes source n.children = typeShapes other m.children := by
  rw [typeShapes_eq, typeShapes_eq, ← Node.namedChildren, ← Node.namedChildren,
    Node.namedChildren_eq hn, Node.namedChildren_eq hm]
  exact map_eq_map (fun _ _ hcd => hcd.2) (rel_filter (fun _ _ hcd => hcd.1) h)

/-- Types that differ in comments only describe the same values. -/
theorem typeShape_eq (h : Node.Alike source other n m) (hn : n.clear = true)
    (hm : m.clear = true) : typeShape source n = typeShape other m := by
  induction n using Node.induction_children generalizing m with
  | step n ih =>
    obtain ⟨hfree, hinside⟩ := Node.clear_iff.mp hn
    obtain ⟨hfree', hinside'⟩ := Node.clear_iff.mp hm
    have hread : List.Forall₂ (fun c d => c.named = d.named ∧
        typeShape source c = typeShape other d) n.properChildren m.properChildren := by
      refine (with_mem h.children).imp ?_
      intro c d hcd
      have hc := (List.mem_filter.mp hcd.1).1
      have hd := (List.mem_filter.mp hcd.2.1).1
      have halike := Node.alike_iff.mp hcd.2.2
      exact ⟨halike.named, ih c hc halike (hinside c hc) (hinside' d hd)⟩
    have hcalls := callSignature_eq h
    rcases n with ⟨label, ns⟩
    rcases m with ⟨label', ms⟩
    have hkind : label.kind = label'.kind := h.kind
    have htext (hword : label.kind.isWord = true) : Text.slice source label.start label.stop =
        Text.slice other label'.start label'.stop := h.text hword
    have hname (hgeneric : .name ∈ label.kind.wordFields) :
        (ns.find? fun c => c.field == some .name).map (Node.text source) =
          (ms.find? fun c => c.field == some .name).map (Node.text other) := h.texts _ hgeneric
    simp only [Node.obstructed, Node.kind, Node.label_mk, hkind] at hfree hfree' htext hname
    simp only [typeShape, hkind]
    cases hk : label'.kind
    all_goals simp only [hk] at hfree hfree' htext hname
    case annotatedType | parenthesizedType => exact firstTypeShape_eq_of_read hread hfree hfree'
    case predefinedType | typeIdentifier | nestedTypeIdentifier => simp only [htext rfl]
    case objectType =>
      exact congrArg (fun b : Bool => if b then Shape.ofFunction else .plain) hcalls
    case genericType =>
      have heq := hname List.mem_cons_self
      revert heq
      cases ns.find? _ <;> cases ms.find? _ <;> simp +contextual
    case unionType | intersectionType =>
      exact congrArg Shape.any (typeShapes_eq_of_read hread hfree hfree')
    all_goals rfl

end Types

theorem patternNames_aside {n : Node} (h : n.isAside = true) (shape : Shape) :
    patternNames source shape n = [] := by
  obtain ⟨hkind, -, hchildren⟩ := Node.isAside_iff.mp h
  have hnot : ¬ IsName n := by simp [IsName, hkind]
  rw [patternNames_of_not_isName hnot, hchildren, partNames]

/-- Patterns that differ in comments only bind the same names. -/
theorem patternNames_eq {n m : Node} (h : Node.Alike source other n m) (shape : Shape) :
    patternNames source shape n = patternNames other shape m := by
  induction n using Node.induction_children generalizing m shape with
  | step n ih =>
    by_cases hname : IsName n
    · have hname' : IsName m := by rwa [IsName, ← h.kind]
      have hword : n.kind.isWord = true := by rcases hname with hk | hk <;> rw [hk] <;> rfl
      rw [patternNames_of_isName hname, patternNames_of_isName hname', h.text hword]
    · have hname' : ¬ IsName m := by rwa [IsName, ← h.kind]
      have hparts : List.Forall₂ (fun c d => (c.named && c.kind != .annotatedType) =
            (d.named && d.kind != .annotatedType) ∧
          patternNames source .unknown c = patternNames other .unknown d)
          n.properChildren m.properChildren := by
        refine (with_mem h.children).imp ?_
        intro c d hcd
        have halike := Node.alike_iff.mp hcd.2.2
        exact ⟨by rw [halike.named, halike.kind], ih c (List.mem_filter.mp hcd.1).1 halike _⟩
      rw [patternNames_of_not_isName hname, patternNames_of_not_isName hname',
        partNames_eq_flatMap, partNames_eq_flatMap,
        flatMap_filter_of_nil fun _ hc => patternNames_aside hc _,
        flatMap_filter_of_nil (fun _ hc => patternNames_aside hc _) _ m.children]
      exact flatMap_eq_flatMap (fun _ _ hcd => hcd.2) (rel_filter (fun _ _ hcd => hcd.1) hparts)

def SameScope (t u : Node) (a b : Address) : Prop :=
  ∃ p q, Counterpart (root t) (root u) p q ∧ p.address = a ∧ q.address = b

structure Binding.Corresponds (t u : Node) (b c : Binding) : Prop where
  scope : SameScope t u b.scope c.scope
  name : b.name = c.name
  shape : b.shape = c.shape

structure ClassBinding.Corresponds (t u : Node) (b c : ClassBinding) : Prop where
  scope : SameScope t u b.scope c.scope
  name : b.name = c.name
  derived : b.derived = c.derived

/-- The same is declared in the scopes of two trees that are counterparts, in whatever order. -/
structure Declarations.Corresponds (t u : Node) (d e : Declarations) : Prop where
  classes : List.Forall₂ (ClassBinding.Corresponds t u) d.classes e.classes
  bindings : ∀ b ∈ d.bindings, ∃ c ∈ e.bindings, b.Corresponds t u c
  converse : ∀ c ∈ e.bindings, ∃ b ∈ d.bindings, b.Corresponds t u c

section Scopes

variable {t u : Node} {p q : Place} {d e : Declarations}

theorem sameScope (h : Counterpart (root t) (root u) p q) : SameScope t u p.address q.address :=
  ⟨p, q, h, rfl, rfl⟩

theorem SameScope.symm {a b : Address} (h : SameScope t u a b) : SameScope u t b a := by
  obtain ⟨p, q, hpq, hp, hq⟩ := h
  exact ⟨q, p, hpq.symm, hq, hp⟩

theorem SameScope.eq_iff {a b a' b' : Address} (h : SameScope t u a b) (h' : SameScope t u a' b') :
    a = a' ↔ b = b' := by
  obtain ⟨p, q, hpq, rfl, rfl⟩ := h
  obtain ⟨p', q', hpq', rfl, rfl⟩ := h'
  exact hpq.address_eq_iff hpq'

theorem Binding.Corresponds.symm {b c : Binding} (h : b.Corresponds t u c) :
    c.Corresponds u t b :=
  ⟨h.scope.symm, h.name.symm, h.shape.symm⟩

theorem ClassBinding.Corresponds.symm {b c : ClassBinding} (h : b.Corresponds t u c) :
    c.Corresponds u t b :=
  ⟨h.scope.symm, h.name.symm, h.derived.symm⟩

namespace Declarations.Corresponds

theorem symm (h : d.Corresponds t u e) : e.Corresponds u t d where
  classes := (h.classes.imp fun _ _ hbc => hbc.symm).flip
  bindings c hc := by
    obtain ⟨b, hb, hbc⟩ := h.converse c hc
    exact ⟨b, hb, hbc.symm⟩
  converse b hb := by
    obtain ⟨c, hc, hbc⟩ := h.bindings b hb
    exact ⟨c, hc, hbc.symm⟩

theorem mem_of_mem {a b : Address} {name : String} {shape : Shape} (h : d.Corresponds t u e)
    (hab : SameScope t u a b) (hmem : ⟨a, name, shape⟩ ∈ d.bindings) :
    ⟨b, name, shape⟩ ∈ e.bindings := by
  obtain ⟨⟨b', name', shape'⟩, hc, hscope, hname, hshape⟩ := h.bindings _ hmem
  obtain rfl : b = b' := (hab.eq_iff hscope).mp rfl
  obtain rfl : name = name' := hname
  obtain rfl : shape = shape' := hshape
  exact hc

theorem shapeIn?_eq {a b : Address} (h : d.Corresponds t u e) (hab : SameScope t u a b)
    (name : String) : d.shapeIn? a name = e.shapeIn? b name :=
  shapeIn?_congr fun _ => ⟨h.mem_of_mem hab, h.symm.mem_of_mem hab.symm⟩

theorem resolve?_rel (h : d.Corresponds t u e) (hpq : Counterpart (root t) (root u) p q)
    (name : String) :
    Option.Rel (fun x y => SameScope t u x.1 y.1 ∧ x.2 = y.2) (d.resolve? p name)
      (e.resolve? q name) := by
  refine rel_findSome? ?_ hpq.selfAndAncestors
  intro a b hab
  rw [h.shapeIn?_eq (sameScope hab)]
  cases e.shapeIn? b.address name with
  | none => exact .none
  | some shape => exact .some ⟨sameScope hab, rfl⟩

theorem lookup_eq (h : d.Corresponds t u e) (hpq : Counterpart (root t) (root u) p q)
    (name : String) : d.lookup p name = e.lookup q name := by
  have hrel := h.resolve?_rel hpq name
  rw [lookup, lookup]
  generalize d.resolve? p name = x, e.resolve? q name = y at hrel
  cases hrel with
  | none => rfl
  | some hshape => exact hshape.2

theorem derivedIn?_eq {a b : Address} (h : d.Corresponds t u e) (hab : SameScope t u a b)
    (name : String) : d.derivedIn? a name = e.derivedIn? b name := by
  have hrel : List.Forall₂ (ClassBinding.Corresponds t u)
      (d.classes.filter fun c => c.scope == a && c.name == name)
      (e.classes.filter fun c => c.scope == b && c.name == name) := by
    refine rel_filter ?_ h.classes
    intro b c hbc
    rw [hbc.name, Bool.eq_iff_iff]
    simp [hbc.scope.eq_iff hab]
  have hany := any_eq_any (fun _ _ hbc => hbc.derived) hrel
  rw [derivedIn?, derivedIn?]
  generalize d.classes.filter _ = xs, e.classes.filter _ = ys at hrel hany
  cases hrel with
  | nil => rfl
  | cons => exact congrArg some hany

theorem derived_eq (h : d.Corresponds t u e) (hpq : Counterpart (root t) (root u) p q)
    (name : String) :
    ((d.resolve? p name).bind fun found => d.derivedIn? found.1 name) =
      (e.resolve? q name).bind fun found => e.derivedIn? found.1 name := by
  have hrel := h.resolve?_rel hpq name
  generalize d.resolve? p name = x, e.resolve? q name = y at hrel
  cases hrel with
  | none => rfl
  | some hscope => exact h.derivedIn?_eq hscope.1 name

end Declarations.Corresponds

end Scopes

theorem assertedShape_eq (source : String) (n : Node) :
    assertedShape source n.children =
      (n.namedChildren[1]?.map (typeShape source)).getD .unknown := by
  rw [assertedShape, ← Node.namedChildren]
  split
  · rename_i heq
    rw [heq]
    rfl
  · rename_i hother
    cases hnamed : n.namedChildren with
    | nil => rfl
    | cons first rest =>
      cases rest with
      | nil => rfl
      | cons second rest => exact absurd hnamed (hother first second rest)

section Expressions

variable {t u : Node} {p q : Place}

theorem clear_of_within (ht : t.clear = true) (h : Place.Within (root t) p) :
    p.node.clear = true := by
  induction h with
  | refl => exact ht
  | child _ hc ih => exact (Node.clear_iff.mp ih).2 _ (Place.node_mem_children hc)

theorem find?_children {f : Node → Bool}
    (h : (p.node.children.find? f).any Node.isAside = false) :
    (p.children.find? fun c => f c.node) = p.properChildren.find? fun c => f c.node := by
  rw [← Place.map_node_children, List.find?_map, Option.any_map] at h
  exact find?_filter_of_not_any h

variable {d e : Declarations} (halike : Node.Alike source other t u) (ht : t.clear = true)
  (hu : u.clear = true) (hd : d.Corresponds t u e)

include halike hd

theorem newShape_eq (h : Counterpart (root t) (root u) p q) (hkind : p.kind = .newExpression) :
    newShape d source p = newShape e other q := by
  have hrel := h.word? halike .constructor (by rw [hkind]; exact List.mem_cons_self)
  rw [newShape, newShape]
  generalize p.child? .constructor = x, q.child? .constructor = y at hrel
  cases hrel with
  | none => rfl
  | some hcallee => simp only [hcallee.2, hcallee.1.kind_eq halike, hd.derived_eq h]

theorem memberShape_eq (h : Counterpart (root t) (root u) p q)
    (hkind : p.kind = .memberExpression) : memberShape d source p = memberShape e other q := by
  have hobject := h.child? halike .object
  have hproperty := h.word? halike .property (by rw [hkind]; exact List.mem_cons_self)
  rw [memberShape, memberShape]
  generalize p.child? .object = x, q.child? .object = y at hobject
  generalize p.child? .property = x', q.child? .property = y' at hproperty
  cases hobject with
  | none => rfl
  | some hobject =>
    cases hproperty with
    | none => rfl
    | some hproperty =>
      simp only [hproperty.2, hobject.kind_eq halike, hd.lookup_eq h]

theorem identifierShape_eq (h : Counterpart (root t) (root u) p q) (hkind : p.kind = .identifier) :
    identifierShape d source p = identifierShape e other q := by
  have htext : p.text source = q.text other := h.text_eq halike (by rw [hkind]; rfl)
  simp only [identifierShape, htext, hd.lookup_eq h]

omit hd in
theorem firstExprShape_eq_of_read (accepts : Kind → Bool)
    (h : Counterpart (root t) (root u) p q)
    (hchildren : ∀ c d', c ∈ p.children → Counterpart (root t) (root u) c d' →
      exprShape d source c = exprShape e other d')
    (hp : (p.node.children.find? fun c => c.named && accepts c.kind).any Node.isAside = false)
    (hq : (q.node.children.find? fun c => c.named && accepts c.kind).any Node.isAside = false) :
    firstExprShape d source accepts p.address (p.node :: p.above) 0 p.node.children =
      firstExprShape e other accepts q.address (q.node :: q.above) 0 q.node.children := by
  rw [firstExprShape_eq, firstExprShape_eq, ← Place.children, ← Place.children,
    find?_children hp, find?_children hq]
  congr 1
  refine option_map_eq ?_ (rel_find? ?_ (with_mem (h.properChildren halike)))
  · intro c c' hc
    exact hchildren c c' (List.mem_filter.mp hc.1).1 hc.2.2
  · intro c c' hc
    rw [(hc.2.2.alike halike).named, (hc.2.2.alike halike).kind]

omit hd in
include ht hu in
theorem assertedShape_eq_of_read (h : Counterpart (root t) (root u) p q)
    (hp : (p.node.namedChildren.take 2).any Node.isAside = false)
    (hq : (q.node.namedChildren.take 2).any Node.isAside = false) :
    assertedShape source p.node.children = assertedShape other q.node.children := by
  have hnamed (n : Node) : n.namedChildren.filter (fun c => !c.isAside) =
      n.properChildren.filter Node.named := by
    rw [Node.namedChildren, Node.properChildren, List.filter_filter, List.filter_filter]
    simp only [Bool.and_comm]
  have hread : List.Forall₂ (fun c c' => c.named = c'.named ∧
      typeShape source c = typeShape other c') p.node.properChildren q.node.properChildren := by
    have hinside := (Node.clear_iff.mp (clear_of_within ht h.within)).2
    have hinside' := (Node.clear_iff.mp (clear_of_within hu h.symm.within)).2
    refine (with_mem (h.alike halike).children).imp ?_
    intro c c' hc
    have hcc' := Node.alike_iff.mp hc.2.2
    exact ⟨hcc'.named, typeShape_eq hcc' (hinside c (List.mem_filter.mp hc.1).1)
      (hinside' c' (List.mem_filter.mp hc.2.1).1)⟩
  rw [assertedShape_eq, assertedShape_eq, getElem?_filter_of_not_any hp Nat.one_lt_two,
    getElem?_filter_of_not_any hq Nat.one_lt_two, hnamed, hnamed,
    option_map_eq (fun _ _ hc => hc.2) (rel_getElem? (rel_filter (fun _ _ hc => hc.1) hread) 1)]

include ht hu in
/-- Expressions that differ in comments only have the same shape. -/
theorem exprShape_eq (h : Counterpart (root t) (root u) p q) :
    exprShape d source p = exprShape e other q := by
  induction p using Place.induction_children generalizing q with
  | step p ih =>
    have hp := (Node.clear_iff.mp (clear_of_within ht h.within)).1
    have hq := (Node.clear_iff.mp (clear_of_within hu h.symm.within)).1
    have hfirst (accepts : Kind → Bool) := firstExprShape_eq_of_read halike accepts h
      (fun c c' hc hcc' => ih c hc hcc')
    have hasserted := assertedShape_eq_of_read halike ht hu h
    have hkind := h.kind_eq halike
    have hnew := newShape_eq halike hd h
    have hmember := memberShape_eq halike hd h
    have hidentifier := identifierShape_eq halike hd h
    rcases p with ⟨address, ⟨label, ns⟩, above⟩
    rcases q with ⟨address', ⟨label', ms⟩, above'⟩
    change label.kind = label'.kind at hkind
    simp only [exprShape, exprShapeAt, hkind]
    simp only [Node.obstructed, Node.kind, Node.label_mk, hkind] at hp hq
    cases hk : label'.kind
    all_goals simp only [hk] at hp hq
    case parenthesized | satisfiesExpression | nonNullExpression =>
      exact hfirst _ (by simpa using hp) (by simpa using hq)
    case newExpression => exact hnew (hkind.trans hk)
    case identifier => exact hidentifier (hkind.trans hk)
    case memberExpression => exact hmember (hkind.trans hk)
    case typeAssertion => exact hfirst _ hp hq
    case asExpression =>
      have heq := hasserted hp hq
      have hcontent := hfirst (fun _ => true)
        (by simpa using Node.find?_named_of_take hp) (by simpa using Node.find?_named_of_take hq)
      simp only [Node.children_mk] at heq hcontent
      rw [heq, hcontent]
    all_goals rfl

end Expressions

end Oracle

end ObserverLint
