import ObserverLint.Oracle.Expressions
import ObserverLint.Oracle.Scope
import ObserverLint.Proofs.Places

namespace ObserverLint

namespace Kind

/-- Expressions that stand for the expression inside them: parentheses and assertions. -/
def isWrapper : Kind → Bool
  | parenthesized | satisfiesExpression | nonNullExpression | asExpression | typeAssertion => true
  | _ => false

def isLookup : Kind → Bool
  | identifier | memberExpression | newExpression => true
  | _ => false

theorem not_isLookup_of_isFunctionScope {kind : Kind} (h : kind.isFunctionScope = true) :
    kind.isLookup = false ∧ kind.isWrapper = false := by
  cases kind <;> simp_all [isFunctionScope, isLookup, isWrapper]

end Kind

def Place.firstNamed? (p : Place) (accepts : Kind → Bool) : Option Place :=
  p.children.find? fun c => c.node.named && accepts c.node.kind

namespace Oracle

-- The equations are made here, once, and not while every proof below waits for them.
attribute [local simp] exprShapeAt

theorem exprShape_identifier (d : Declarations) {source : String} {u : Place}
    (hkind : u.kind = .identifier) (htext : u.text source ≠ "undefined") :
    exprShape d source u = d.lookup u (u.text source) := by
  rcases u with ⟨address, ⟨label, ns⟩, above⟩
  have hlabel : label.kind = .identifier := hkind
  simp only [exprShape, exprShapeAt, hlabel, identifierShape]

theorem exprShape_thisMember (d : Declarations) {source : String} {u object property : Place}
    (hkind : u.kind = .memberExpression) (hobject : u.child? .object = some object)
    (hthis : object.kind = .thisExpression) (hproperty : u.child? .property = some property) :
    exprShape d source u = d.lookup u (fieldKey (property.text source)) := by
  rcases u with ⟨address, ⟨label, ns⟩, above⟩
  have hlabel : label.kind = .memberExpression := hkind
  simp [exprShape, exprShapeAt, hlabel, memberShape, hobject, hproperty, hthis]

theorem exprShape_newExpression {d : Declarations} {source : String} {c : Place}
    (h : c.kind = .newExpression) :
    exprShape d source c = newShape d source c := by
  rcases c with ⟨address, ⟨label, ns⟩, above⟩
  have hlabel : label.kind = .newExpression := h
  simp only [exprShape, exprShapeAt, hlabel]

theorem exprShape_memberExpression {d : Declarations} {source : String} {c : Place}
    (h : c.kind = .memberExpression) :
    exprShape d source c = memberShape d source c := by
  rcases c with ⟨address, ⟨label, ns⟩, above⟩
  have hlabel : label.kind = .memberExpression := h
  simp only [exprShape, exprShapeAt, hlabel]

theorem exprShape_undefined {d : Declarations} {source : String} {c : Place}
    (hkind : c.kind = .identifier) (htext : c.text source = "undefined") :
    exprShape d source c = .plain := by
  rcases c with ⟨address, ⟨label, ns⟩, above⟩
  have hlabel : label.kind = .identifier := hkind
  simp only [exprShape, exprShapeAt, hlabel, identifierShape, htext]

theorem firstExprShape_congr {d e : Declarations} {source : String} {accepts : Kind → Bool}
    {address : Address} {above : List Node} {i : Nat} {ns : List Node}
    (h : ∀ c ∈ Place.siblings address above i ns, exprShape d source c = exprShape e source c) :
    firstExprShape d source accepts address above i ns =
      firstExprShape e source accepts address above i ns := by
  induction ns generalizing i with
  | nil => rfl
  | cons n ns ih =>
    rw [Place.siblings, List.forall_mem_cons] at h
    rw [firstExprShape, firstExprShape, ih h.2]
    split
    · exact h.1
    · rfl

section Congruence

variable {d e : Declarations} {source : String} {p : Place}

theorem lookup_congr {name : String} (h : d.resolve? p name = e.resolve? p name) :
    d.lookup p name = e.lookup p name := by
  rw [Declarations.lookup, Declarations.lookup, h]

theorem newShape_congr (hclasses : d.classes = e.classes)
    (h : ∀ name, d.resolve? p name = e.resolve? p name) :
    newShape d source p = newShape e source p := by
  simp only [newShape, h, Declarations.derivedIn?, hclasses]

theorem memberShape_congr (h : ∀ name, d.resolve? p name = e.resolve? p name) :
    memberShape d source p = memberShape e source p := by
  simp only [memberShape, lookup_congr (h _)]

theorem identifierShape_congr (h : ∀ name, d.resolve? p name = e.resolve? p name) :
    identifierShape d source p = identifierShape e source p := by
  simp only [identifierShape, lookup_congr (h _)]

theorem exprShape_wrapper_congr (hwrapper : p.kind.isWrapper = true)
    (h : ∀ c ∈ p.children, exprShape d source c = exprShape e source c) :
    exprShape d source p = exprShape e source p := by
  rcases p with ⟨address, ⟨label, ns⟩, above⟩
  have hfirst (accepts : Kind → Bool) :
      firstExprShape d source accepts address (.mk label ns :: above) 0 ns =
        firstExprShape e source accepts address (.mk label ns :: above) 0 ns :=
    firstExprShape_congr h
  have hkind : label.kind.isWrapper = true := hwrapper
  cases hlabel : label.kind
  case parenthesized | satisfiesExpression | nonNullExpression | asExpression | typeAssertion =>
    simp only [exprShape, exprShapeAt, hlabel, hfirst]
  all_goals simp [hlabel, Kind.isWrapper] at hkind

theorem exprShape_lookup_congr (hlookup : p.kind.isLookup = true)
    (hclasses : d.classes = e.classes) (h : ∀ name, d.resolve? p name = e.resolve? p name) :
    exprShape d source p = exprShape e source p := by
  rcases p with ⟨address, ⟨label, ns⟩, above⟩
  have hkind : label.kind.isLookup = true := hlookup
  cases hlabel : label.kind
  case identifier => simp only [exprShape, exprShapeAt, hlabel, identifierShape_congr h]
  case memberExpression => simp only [exprShape, exprShapeAt, hlabel, memberShape_congr h]
  case newExpression => simp only [exprShape, exprShapeAt, hlabel, newShape_congr hclasses h]
  all_goals simp [hlabel, Kind.isLookup] at hkind

/-- All other expressions show their shape themselves. -/
theorem exprShape_eq_of_not_lookup (hwrapper : p.kind.isWrapper = false)
    (hlookup : p.kind.isLookup = false) : exprShape d source p = exprShape e source p := by
  rcases p with ⟨address, ⟨label, ns⟩, above⟩
  simp only [exprShape, exprShapeAt]
  cases hkind : label.kind <;>
    simp_all [Place.kind, Node.kind, Kind.isWrapper, Kind.isLookup]

/-- Two sets of declarations give an expression the same shape if they agree wherever the
expression looks at them. -/
theorem exprShape_congr (visible : Place → Prop) (hclasses : d.classes = e.classes)
    (hlookup : ∀ q, visible q → q.kind.isLookup = true →
      ∀ name, d.resolve? q name = e.resolve? q name)
    (hinside : ∀ q c, visible q → q.kind.isWrapper = true → c ∈ q.children → visible c)
    (hp : visible p) : exprShape d source p = exprShape e source p := by
  induction p using Place.induction_children with
  | step p ih =>
    -- Only wrappers are looked into, so only they need the induction hypothesis.
    cases hw : p.kind.isWrapper with
    | true => exact exprShape_wrapper_congr hw fun c hc => ih c hc (hinside p c hp hw hc)
    | false =>
      cases hl : p.kind.isLookup with
      | true => exact exprShape_lookup_congr hl hclasses (hlookup p hp hl)
      | false => exact exprShape_eq_of_not_lookup hw hl

end Congruence

/-- The expression inside a wrapper, unless a type asserted there has the last word. -/
def unwrapped? (source : String) (p : Place) : Option Place :=
  match p.kind with
  | .parenthesized | .satisfiesExpression | .nonNullExpression => p.firstNamed? fun _ => true
  | .asExpression =>
    if assertedShape source p.node.children = .unknown then p.firstNamed? fun _ => true else none
  | .typeAssertion => p.firstNamed? (· != .typeArguments)
  | _ => none

section Wrappers

variable {source : String} {p c : Place}

theorem firstExprShape_eq (d : Declarations) (source : String) (accepts : Kind → Bool)
    (address : Address) (above : List Node) (i : Nat) (ns : List Node) :
    firstExprShape d source accepts address above i ns =
      (((Place.siblings address above i ns).find? fun c =>
        c.node.named && accepts c.node.kind).map (exprShape d source)).getD .unknown := by
  induction ns generalizing i with
  | nil => rfl
  | cons n ns ih =>
    rw [firstExprShape, Place.siblings, List.find?_cons, ih]
    cases n.named && accepts n.kind <;> rfl

theorem isWrapper_of_unwrapped? (h : unwrapped? source p = some c) : p.kind.isWrapper = true := by
  unfold unwrapped? at h
  cases hkind : p.kind
  case parenthesized | satisfiesExpression | nonNullExpression | asExpression | typeAssertion => rfl
  all_goals simp [hkind] at h

theorem mem_children_of_unwrapped? (h : unwrapped? source p = some c) : c ∈ p.children := by
  unfold unwrapped? at h
  cases hkind : p.kind
  all_goals simp only [hkind] at h
  case parenthesized | satisfiesExpression | nonNullExpression | typeAssertion =>
    exact List.mem_of_find?_eq_some h
  case asExpression =>
    split at h
    · exact List.mem_of_find?_eq_some h
    · cases h
  all_goals cases h

/-- A wrapper has the shape of what it wraps, or else one that no declaration bears on. -/
theorem exists_exprShape_wrapper (hwrapper : p.kind.isWrapper = true) :
    ∃ shape, ∀ d, exprShape d source p =
      ((unwrapped? source p).map (exprShape d source)).getD shape := by
  rcases p with ⟨address, ⟨label, ns⟩, above⟩
  have hkind : label.kind.isWrapper = true := hwrapper
  cases hlabel : label.kind
  case asExpression =>
    refine ⟨assertedShape source ns, fun d => ?_⟩
    by_cases hasserted : assertedShape source ns = .unknown
    · simp only [exprShape, exprShapeAt, unwrapped?, Place.kind, Node.kind, Node.label_mk,
        Node.children_mk, hlabel, hasserted, if_true]
      exact firstExprShape_eq d _ _ _ _ _ _
    · simp only [exprShape, exprShapeAt, unwrapped?, Place.kind, Node.kind, Node.label_mk,
        Node.children_mk, hlabel, hasserted, if_false, Option.map_none, Option.getD_none]
  case parenthesized | satisfiesExpression | nonNullExpression | typeAssertion =>
    refine ⟨.unknown, fun d => ?_⟩
    simp only [exprShape, exprShapeAt, unwrapped?, Place.kind, Node.kind, Node.label_mk, hlabel]
    exact firstExprShape_eq d _ _ _ _ _ _
  all_goals simp [hlabel, Kind.isWrapper] at hkind

theorem exprShape_of_unwrapped? (h : unwrapped? source p = some c) (d : Declarations) :
    exprShape d source p = exprShape d source c := by
  obtain ⟨shape, hshape⟩ := @exists_exprShape_wrapper source p (isWrapper_of_unwrapped? h)
  rw [hshape, h, Option.map_some, Option.getD_some]

theorem exprShape_eq_of_unwrapped?_eq_none (hwrapper : p.kind.isWrapper = true)
    (h : unwrapped? source p = none) (d e : Declarations) :
    exprShape d source p = exprShape e source p := by
  obtain ⟨shape, hshape⟩ := @exists_exprShape_wrapper source p hwrapper
  rw [hshape, hshape, h, Option.map_none, Option.map_none]

end Wrappers

end Oracle

end ObserverLint
