import ObserverLint.Proofs.Asides
import ObserverLint.Proofs.ClassFields

namespace ObserverLint

open InStep

namespace Kind

theorem isBlockScope_of_isRead {kind : Kind} (h : kind.isWrapper = true ∨ kind.isLookup = true) :
    kind.isBlockScope = false := by
  cases kind <;> simp_all [isWrapper, isLookup, isBlockScope, isFunctionScope]

end Kind

namespace Node

/-- The trees have the same form and the same text at every node. -/
inductive Copy (source : String) : Node → Node → Prop
  | intro {n m : Node} : n.kind = m.kind → n.field = m.field → n.named = m.named →
      n.text source = m.text source → List.Forall₂ (Copy source) n.children m.children →
      Copy source n m

namespace Copy

variable {source : String} {n m : Node}

theorem kind_eq (h : Copy source n m) : n.kind = m.kind := by
  obtain ⟨hkind, -, -, -, -⟩ := h
  exact hkind

theorem field_eq (h : Copy source n m) : n.field = m.field := by
  obtain ⟨-, hfield, -, -, -⟩ := h
  exact hfield

theorem named_eq (h : Copy source n m) : n.named = m.named := by
  obtain ⟨-, -, hnamed, -, -⟩ := h
  exact hnamed

theorem text_eq (h : Copy source n m) : n.text source = m.text source := by
  obtain ⟨-, -, -, htext, -⟩ := h
  exact htext

theorem children (h : Copy source n m) : List.Forall₂ (Copy source) n.children m.children := by
  obtain ⟨-, -, -, -, hchildren⟩ := h
  exact hchildren

theorem namedChildren (h : Copy source n m) :
    List.Forall₂ (Copy source) n.namedChildren m.namedChildren :=
  rel_filter (fun _ _ hcd => hcd.named_eq) h.children

end Copy

end Node

namespace Oracle

open Place

section Blocks

variable {source : String} {d : Declarations} {q : Place} {b : Binding}

def InBlockAt (q : Place) (address : Address) : Prop :=
  ∃ s ∈ q.selfAndAncestors, s.kind.isBlockScope = true ∧ address = s.address

theorem inBlockAt_of_declaringScope? {s : Place} {hoisted : Bool}
    (h : q.declaringScope? hoisted = some s) : InBlockAt q s.address := by
  refine ⟨s, List.mem_cons_of_mem _ (List.mem_of_find?_eq_some h), ?_, rfl⟩
  have hkind := List.find?_some h
  cases hoisted with
  | true => exact Kind.isBlockScope_of_isFunctionScope hkind
  | false => exact hkind

theorem inBlockAt_of_enclosingClassBody? {s : Place} (h : q.enclosingClassBody? = some s) :
    InBlockAt q s.address := by
  refine ⟨s, List.mem_cons_of_mem _ (List.mem_of_find?_eq_some h), ?_, rfl⟩
  rw [kind_of_enclosingClassBody? h]
  rfl

theorem inBlockAt_self (h : q.kind.isBlockScope = true) : InBlockAt q q.address :=
  ⟨q, List.mem_cons_self, h, rfl⟩

theorem BindsPattern.inBlockAt {scope pattern : Place} (h : BindsPattern source q scope pattern) :
    InBlockAt q scope.address := by
  cases h with
  | declarator _ hscope | risingLoopVariable _ _ _ hscope | parameter _ hscope
  | bareParameter _ hscope => exact inBlockAt_of_declaringScope? hscope
  | loopVariable hkind => exact inBlockAt_self (by rw [hkind]; rfl)
  | ownParameter hkind => exact inBlockAt_self (by rcases hkind with h | h <;> rw [h] <;> rfl)

/-- What a place declares is declared in a block at or around the place. -/
theorem Declares.inBlockAt (h : Declares d source q b) : InBlockAt q b.scope := by
  cases h with
  | pattern hbinds hb =>
    rw [scope_of_mem_bindPattern hb]
    exact hbinds.inBlockAt
  | field hfield => exact inBlockAt_of_enclosingClassBody? hfield.enclosing
  | function _ _ hscope => exact inBlockAt_of_declaringScope? hscope
  | imported _ hscope => exact inBlockAt_of_declaringScope? hscope

theorem exists_block_of_mem_contributions {file : SourceFile} (h : b ∈ contributions file) :
    ∃ s, Within file.root s ∧ s.kind.isBlockScope = true ∧ b.scope = s.address := by
  have hblock : ∃ q, Within file.root q ∧ InBlockAt q b.scope := by
    rw [contributions_eq_classes_append, List.mem_append] at h
    rcases h with h | h
    · obtain ⟨q, hq, scope, hdeclares, heq⟩ := exists_declaresClass_of_mem_bindings h
      rw [heq]
      exact ⟨q, mem_preorder.mp hq, inBlockAt_of_declaringScope? hdeclares.inScope⟩
    · obtain ⟨q, hq, d, hd⟩ := exists_of_mem_contributionsFrom h
      exact ⟨q, SourceFile.mem_places.mp hq, (mem_bindingsAt_iff.mp hd).inBlockAt⟩
  obtain ⟨q, hq, s, hs, hkind, heq⟩ := hblock
  exact ⟨s, (within_of_mem_selfAndAncestors hq hs).1, hkind, heq⟩

/-- A place that is no block declares nothing. -/
theorem shapeIn?_of_not_block {file : SourceFile} (hq : Within file.root q)
    (hkind : q.kind.isBlockScope = false) (name : String) :
    (declarations file).shapeIn? q.address name = none := by
  rw [Declarations.shapeIn?_eq_none_iff, declarations_bindings]
  rintro b hb ⟨hscope, -⟩
  obtain ⟨s, hs, hblock, heq⟩ := exists_block_of_mem_contributions hb
  obtain rfl := eq_of_address_eq hq hs (hscope.symm.trans heq)
  rw [hkind] at hblock
  cases hblock

end Blocks

section Names

variable {file : SourceFile} {p q c : Place}

theorem resolve?_child (hp : Within file.root p) (hc : c ∈ p.children)
    (hkind : c.kind.isBlockScope = false) (name : String) :
    (declarations file).resolve? c name = (declarations file).resolve? p name := by
  rw [Declarations.resolve?, Declarations.resolve?, selfAndAncestors_child hc, List.findSome?_cons,
    shapeIn?_of_not_block (hp.child hc) hkind]
  rfl

/-- Outside of blocks a name means what it means in the nearest block around. -/
theorem resolve?_eq_declaringScope? (hp : Within file.root p) (hkind : p.kind.isBlockScope = false)
    (name : String) :
    (declarations file).resolve? p name =
      (p.declaringScope? false).bind fun s => (declarations file).resolve? s name := by
  induction hp with
  | refl =>
    have hshape := shapeIn?_of_not_block .refl hkind name
    simp only [Declarations.resolve?, selfAndAncestors, declaringScope?, SourceFile.root, root,
      ancestors, lineage, List.findSome?_cons, List.findSome?_nil, List.find?_nil] at hshape ⊢
    rw [hshape]
    rfl
  | @child p c hp hc ih =>
    rw [resolve?_child hp hc hkind, declaringScope?, ancestors_child hc, List.find?_cons]
    cases hblock : p.kind.isBlockScope with
    | true => simp
    | false =>
      rw [ih hblock]
      simp [declaringScope?]

theorem resolve?_eq_of_same_block (hp : Within file.root p) (hq : Within file.root q)
    (hpkind : p.kind.isBlockScope = false) (hqkind : q.kind.isBlockScope = false)
    (hscope : p.declaringScope? false = q.declaringScope? false) (name : String) :
    (declarations file).resolve? p name = (declarations file).resolve? q name := by
  rw [resolve?_eq_declaringScope? hp hpkind, resolve?_eq_declaringScope? hq hqkind, hscope]

end Names

section Types

variable {source : String} {n m : Node}

theorem typeShape_eq_of_copy (h : Node.Copy source n m) :
    typeShape source n = typeShape source m := by
  induction n using Node.induction_children generalizing m with
  | step n ih =>
    have hread : List.Forall₂ (fun c c' => Node.Copy source c c' ∧
        typeShape source c = typeShape source c') n.children m.children :=
      (with_mem h.children).imp fun c c' hc => ⟨hc.2.2, ih c hc.1 hc.2.2⟩
    have hkind := h.kind_eq
    have htext := h.text_eq
    rcases n with ⟨label, ns⟩
    rcases m with ⟨label', ms⟩
    change label.kind = label'.kind at hkind
    change Text.slice source label.start label.stop = Text.slice source label'.start label'.stop
      at htext
    change List.Forall₂ _ ns ms at hread
    simp only [typeShape, hkind, htext]
    cases label'.kind
    case annotatedType | parenthesizedType =>
      rw [firstTypeShape_eq, firstTypeShape_eq,
        option_map_eq (fun _ _ hc => hc.2) (rel_find? (fun _ _ hc => hc.1.named_eq) hread)]
    case objectType =>
      have hany := any_eq_any (f := fun c => c.named && c.kind == .callSignature)
        (g := fun c => c.named && c.kind == .callSignature)
        (fun _ _ hc => by rw [hc.1.named_eq, hc.1.kind_eq]) hread
      simp only [hany]
    case genericType =>
      have hname := option_map_eq (fun _ _ hc => hc.1.text_eq)
        (rel_find? (f := fun c => c.field == some .name) (g := fun c => c.field == some .name)
          (fun _ _ hc => by rw [hc.1.field_eq]) hread)
      revert hname
      cases ns.find? _ <;> cases ms.find? _ <;> simp +contextual
    case unionType | intersectionType =>
      rw [typeShapes_eq, typeShapes_eq,
        map_eq_map (fun _ _ hc => hc.2) (rel_filter (fun _ _ hc => hc.1.named_eq) hread)]
    all_goals rfl

end Types

section Expressions

variable {d : Declarations} {source : String} {p q : Place}

theorem children_of_copy (h : Node.Copy source p.node q.node) :
    List.Forall₂ (fun c c' => Node.Copy source c.node c'.node) p.children q.children := by
  have hnodes := h.children
  rwa [← map_node_children, ← map_node_children, List.forall₂_map_left_iff,
    List.forall₂_map_right_iff] at hnodes

theorem child?_of_copy (h : Node.Copy source p.node q.node) (f : Field) :
    Option.Rel (fun c c' => Node.Copy source c.node c'.node) (p.child? f) (q.child? f) :=
  rel_find? (fun _ _ hc => by rw [hc.field_eq]) (children_of_copy h)

/-- If names mean the same at two places, they mean the same to a child of the one that is looked
into and to a copy of it below the other. -/
theorem resolve?_children_eq {file : SourceFile} {c c' : Place} {name : String}
    (hp : Within file.root p) (hq : Within file.root q) (hc : c ∈ p.children)
    (hc' : c' ∈ q.children) (hcopy : Node.Copy file.text c.node c'.node)
    (hread : c.kind.isWrapper = true ∨ c.kind.isLookup = true)
    (hview : (declarations file).resolve? p name = (declarations file).resolve? q name) :
    (declarations file).resolve? c name = (declarations file).resolve? c' name := by
  have hblock : c.kind.isBlockScope = false := Kind.isBlockScope_of_isRead hread
  have hblock' : c'.kind.isBlockScope = false := by
    rw [← hblock]
    exact congrArg Kind.isBlockScope hcopy.kind_eq.symm
  rw [resolve?_child hp hc hblock, resolve?_child hq hc' hblock', hview]

section Lookups

variable (h : Node.Copy source p.node q.node)
  (hview : ∀ name, d.resolve? p name = d.resolve? q name)

include h hview

theorem newShape_eq_of_copy : newShape d source p = newShape d source q := by
  have hcallee := child?_of_copy h .constructor
  rw [newShape, newShape]
  generalize p.child? .constructor = x, q.child? .constructor = y at hcallee
  cases hcallee with
  | none => rfl
  | @some c c' hcallee =>
    have htext : c.text source = c'.text source := hcallee.text_eq
    have hkind : c.kind = c'.kind := hcallee.kind_eq
    simp only [htext, hkind, hview]

theorem memberShape_eq_of_copy : memberShape d source p = memberShape d source q := by
  have hobject := child?_of_copy h .object
  have hproperty := child?_of_copy h .property
  rw [memberShape, memberShape]
  generalize p.child? .object = x, q.child? .object = y at hobject
  generalize p.child? .property = x', q.child? .property = y' at hproperty
  cases hobject with
  | none => rfl
  | @some c c' hobject =>
    have hkind : c.kind = c'.kind := hobject.kind_eq
    cases hproperty with
    | none => rfl
    | @some c c' hproperty =>
      have htext : c.text source = c'.text source := hproperty.text_eq
      simp only [htext, hkind, Declarations.lookup, hview]

theorem identifierShape_eq_of_copy : identifierShape d source p = identifierShape d source q := by
  have htext : p.text source = q.text source := h.text_eq
  simp only [identifierShape, htext, Declarations.lookup, hview]

end Lookups

/-- A copy of an expression has the shape of the expression if names mean the same to both. -/
theorem exprShape_eq_of_copy {file : SourceFile} (hp : Within file.root p)
    (hq : Within file.root q) (h : Node.Copy file.text p.node q.node)
    (hview : p.kind.isWrapper = true ∨ p.kind.isLookup = true → ∀ name,
      (declarations file).resolve? p name = (declarations file).resolve? q name) :
    exprShape (declarations file) file.text p = exprShape (declarations file) file.text q := by
  induction p using Place.induction_children generalizing q with
  | step p ih =>
    -- Names mean the same inside a wrapper as around it, and only wrappers are looked into.
    have hinside (hwrapper : p.kind.isWrapper = true) {c c' : Place} (hc : c ∈ p.children)
        (hc' : c' ∈ q.children) (hcopy : Node.Copy file.text c.node c'.node) :
        exprShape (declarations file) file.text c = exprShape (declarations file) file.text c' := by
      refine ih c hc (hp.child hc) (hq.child hc') hcopy fun hread name => ?_
      exact resolve?_children_eq hp hq hc hc' hcopy hread (hview (Or.inl hwrapper) name)
    have hfirst (hwrapper : p.kind.isWrapper = true) (accepts : Kind → Bool) :
        firstExprShape (declarations file) file.text accepts p.address (p.node :: p.above) 0
            p.node.children =
          firstExprShape (declarations file) file.text accepts q.address (q.node :: q.above) 0
            q.node.children := by
      rw [firstExprShape_eq, firstExprShape_eq, ← Place.children, ← Place.children]
      congr 1
      refine option_map_eq (fun c c' hc => hinside hwrapper hc.1 hc.2.1 hc.2.2)
        (rel_find? ?_ (with_mem (children_of_copy h)))
      intro c c' hc
      rw [hc.2.2.named_eq, hc.2.2.kind_eq]
    have hasserted : assertedShape file.text p.node.children =
        assertedShape file.text q.node.children := by
      rw [assertedShape_eq, assertedShape_eq,
        option_map_eq (fun _ _ hc => typeShape_eq_of_copy hc) (rel_getElem? h.namedChildren 1)]
    have hkind := h.kind_eq
    have hlookup (hread : p.kind.isLookup = true) := hview (Or.inr hread)
    have hnew (hread : p.kind.isLookup = true) := newShape_eq_of_copy h (hlookup hread)
    have hmember (hread : p.kind.isLookup = true) := memberShape_eq_of_copy h (hlookup hread)
    have hidentifier (hread : p.kind.isLookup = true) :=
      identifierShape_eq_of_copy h (hlookup hread)
    rcases p with ⟨address, ⟨label, ns⟩, above⟩
    rcases q with ⟨address', ⟨label', ms⟩, above'⟩
    change label.kind = label'.kind at hkind
    simp only [Place.kind, Node.kind, Node.label_mk, Node.children_mk, hkind] at hfirst hasserted
    simp only [Place.kind, Node.kind, Node.label_mk, hkind] at hnew hmember hidentifier
    simp only [exprShape, exprShapeAt, hkind]
    cases hk : label'.kind
    all_goals simp only [hk] at hfirst hnew hmember hidentifier
    case parenthesized | satisfiesExpression | nonNullExpression | typeAssertion =>
      exact hfirst rfl _
    case asExpression => rw [hasserted, hfirst rfl]
    case newExpression => exact hnew rfl
    case memberExpression => exact hmember rfl
    case identifier => exact hidentifier rfl
    all_goals rfl

end Expressions

end Oracle

end ObserverLint
