import ObserverLint.Proofs.Copies

namespace ObserverLint

def Kind.isPassing : Kind → Bool
  | parenthesized | satisfiesExpression | nonNullExpression => true
  | _ => false

theorem Place.firstNamed?_eq (p : Place) (accepts : Kind → Bool) :
    p.firstNamed? accepts = p.namedChildren.find? fun c => accepts c.kind := by
  rw [Place.firstNamed?, Place.namedChildren, List.find?_filter]
  congr 1
  funext c
  cases c.node.named <;> simp [Place.kind]

namespace Oracle

open Place
open SourceFile (placeAt_mem)

/-- The expression at `p` is `e as T`. -/
structure CastsTo (p : Place) (type : Node) (e : Place) : Prop where
  kind : p.kind = .asExpression
  expression : p.namedChildren[0]? = some e
  type : p.node.namedChildren[1]? = some type

/-- The expression at `p` is `<T>e`. -/
structure Asserts (p : Place) (type : Node) (e : Place) : Prop where
  kind : p.kind = .typeAssertion
  type : ∃ front, p.namedChildren[0]? = some front ∧ front.kind = .typeArguments ∧
    front.node.namedChildren[0]? = some type
  expression : p.namedChildren[1]? = some e
  isExpression : e.kind ≠ .typeArguments

section Forms

variable {source : String} {d : Declarations} {p c e : Place} {type : Node}

theorem firstNamed?_of_head {p c : Place} (h : p.namedChildren[0]? = some c) :
    (p.firstNamed? fun _ => true) = some c := by
  rw [firstNamed?_eq]
  cases hnamed : p.namedChildren with
  | nil => rw [hnamed] at h; cases h
  | cons first rest =>
    rw [hnamed] at h
    exact h

theorem exprShape_of_isPassing (hkind : p.kind.isPassing = true)
    (hc : p.namedChildren[0]? = some c) : exprShape d source p = exprShape d source c := by
  apply exprShape_of_unwrapped?
  cases hform : p.kind
  case parenthesized | satisfiesExpression | nonNullExpression =>
    simp only [unwrapped?, hform]
    exact firstNamed?_of_head hc
  all_goals simp [hform, Kind.isPassing] at hkind

/-- A type that says nothing leaves the decision to the expression. -/
theorem exprShape_of_asExpression (hkind : p.kind = .asExpression)
    (he : p.namedChildren[0]? = some e) :
    exprShape d source p =
      if assertedShape source p.node.children = .unknown then exprShape d source e
      else assertedShape source p.node.children := by
  split
  · rename_i hunknown
    apply exprShape_of_unwrapped?
    simp only [unwrapped?, hkind, hunknown, if_true]
    exact firstNamed?_of_head he
  · rename_i hknown
    rcases p with ⟨address, ⟨label, ns⟩, above⟩
    have hlabel : label.kind = .asExpression := hkind
    simp only [exprShape, exprShapeAt, hlabel]
    exact if_neg hknown

theorem CastsTo.exprShape_eq (h : CastsTo p type e) :
    exprShape d source p =
      if typeShape source type = .unknown then exprShape d source e
      else typeShape source type := by
  have hasserted : assertedShape source p.node.children = typeShape source type := by
    rw [assertedShape_eq, h.type]
    rfl
  rw [exprShape_of_asExpression h.kind h.expression, hasserted]

theorem Asserts.exprShape_eq (h : Asserts p type e) :
    exprShape d source p = exprShape d source e := by
  obtain ⟨front, hfront, hkind, -⟩ := h.type
  apply exprShape_of_unwrapped?
  simp only [unwrapped?, h.kind, firstNamed?_eq]
  have hexpression := h.expression
  have hother := h.isExpression
  generalize p.namedChildren = named at hfront hexpression
  cases named with
  | nil => cases hfront
  | cons first rest =>
    obtain rfl := Option.some.inj hfront
    cases rest with
    | nil => cases hexpression
    | cons second rest =>
      obtain rfl := Option.some.inj hexpression
      simp [hkind, hother]

end Forms

/-- The expression at `p` is the one at `e` with parentheses, `satisfies`, `!` and `as` around it;
the types are those after `as`, from the outside in. -/
inductive Wraps : Place → List Node → Place → Prop
  | bare (e : Place) : Wraps e [] e
  /-- `(x)`, `x satisfies T` and `x!` -/
  | passing {p c e : Place} {types : List Node} : p.kind.isPassing = true →
      p.namedChildren[0]? = some c → Wraps c types e → Wraps p types e
  /-- `x as T` -/
  | cast {p c e : Place} {type : Node} {types : List Node} : CastsTo p type c →
      Wraps c types e → Wraps p (type :: types) e
  /-- `x as const` -/
  | constant {p c e : Place} {types : List Node} : p.kind = .asExpression →
      p.namedChildren = [c] → Wraps c types e → Wraps p types e

section Wrappings

variable {d : Declarations} {source : String} {p e : Place} {types : List Node}

theorem Wraps.exprShape_eq (h : Wraps p types e) :
    exprShape d source p =
      (((types.map (typeShape source)).find? (· ≠ .unknown)).getD (exprShape d source e)) := by
  induction h with
  | bare => rfl
  | passing hkind hc _ ih => rw [exprShape_of_isPassing hkind hc, ih]
  | @cast p c e type types hcast _ ih =>
    rw [hcast.exprShape_eq, List.map_cons, List.find?_cons]
    by_cases hunknown : typeShape source type = .unknown
    · simp [hunknown, ih]
    · simp [hunknown]
  | @constant p c e types hkind hnamed _ ih =>
    have hnone : assertedShape source p.node.children = .unknown := by
      have hnodes : p.node.namedChildren = [c.node] := by
        rw [Node.namedChildren, ← map_node_children, List.filter_map]
        exact congrArg (List.map node) hnamed
      rw [assertedShape_eq, hnodes]
      rfl
    rw [exprShape_of_asExpression hkind (by rw [hnamed]; rfl), if_pos hnone, ih]

theorem find?_known_eq_none (h : ∀ t ∈ types, typeShape source t = .unknown) :
    (types.map (typeShape source)).find? (· ≠ .unknown) = none := by
  rw [List.find?_eq_none, List.forall_mem_map]
  intro t ht
  simp [h t ht]

theorem find?_outermost_known {outer inner : List Node} {type : Node}
    (houter : ∀ t ∈ outer, typeShape source t = .unknown)
    (hknown : typeShape source type ≠ .unknown) :
    ((outer ++ type :: inner).map (typeShape source)).find? (· ≠ .unknown) =
      some (typeShape source type) := by
  rw [List.map_append, List.find?_append, find?_known_eq_none houter, Option.none_or,
    List.map_cons, List.find?_cons_of_pos (by simpa using hknown)]

end Wrappings

/-- Of the types that an expression is cast to, the outermost one that says anything decides;
without such a type the innermost expression does. So what is only in parentheses, or under
`satisfies` and `!`, is answered as if it stood alone. -/
theorem wrapped_goes_by_outermost_known_type {d : Declarations} {source : String} {p e : Place}
    {types : List Node} (h : Wraps p types e) :
    (∀ outer type inner, types = outer ++ type :: inner →
      (∀ t ∈ outer, typeShape source t = .unknown) → typeShape source type ≠ .unknown →
      exprShape d source p = typeShape source type) ∧
    ((∀ t ∈ types, typeShape source t = .unknown) →
      exprShape d source p = exprShape d source e) ∧
    (types = [] → ∀ aspect,
      (TypeOracle.ofDeclarations d source).couldBe aspect p =
        (TypeOracle.ofDeclarations d source).couldBe aspect e) := by
  refine ⟨?_, ?_, ?_⟩
  · rintro outer type inner rfl houter hknown
    rw [h.exprShape_eq, find?_outermost_known houter hknown, Option.getD_some]
  · intro hunknown
    rw [h.exprShape_eq, find?_known_eq_none hunknown, Option.getD_none]
  · rintro rfl aspect
    rw [TypeOracle.couldBe_ofDeclarations, TypeOracle.couldBe_ofDeclarations, h.exprShape_eq]
    rfl

/-- `(x as unknown as string)!` -/
def castTwice : SourceFile where
  path := ⟨"cast.ts"⟩
  dialect := .typeScript
  text := "(x as unknown as string)!"
  tree := .mk { kind := .program, stop := 25 } [
    .mk { kind := .nonNullExpression, stop := 25 } [
      .mk { kind := .parenthesized, stop := 24 } [
        .mk { kind := .other "(", named := false, stop := 1 } [],
        .mk { kind := .asExpression, start := 1, stop := 23 } [
          .mk { kind := .asExpression, start := 1, stop := 13 } [
            .mk { kind := .identifier, start := 1, stop := 2 } [],
            .mk { kind := .other "as", named := false, start := 3, stop := 5 } [],
            .mk { kind := .predefinedType, start := 6, stop := 13 } []],
          .mk { kind := .other "as", named := false, start := 14, stop := 16 } [],
          .mk { kind := .predefinedType, start := 17, stop := 23 } []],
        .mk { kind := .other ")", named := false, start := 23, stop := 24 } []],
      .mk { kind := .other "!", named := false, start := 24, stop := 25 } []]]

/-- Nothing is known about `x`, and the inner type says nothing; the outer type rules out that the
whole is a stream. -/
theorem castTwice_goes_by_string :
    Wraps (castTwice.placeAt 1) [(castTwice.placeAt 10).node, (castTwice.placeAt 8).node]
        (castTwice.placeAt 6) ∧
      (TypeOracle.ofFile castTwice).couldBeObservable (castTwice.placeAt 6) = true ∧
      (TypeOracle.ofFile castTwice).couldBeObservable (castTwice.placeAt 1) = false := by
  have hwraps : Wraps (castTwice.placeAt 1)
      [(castTwice.placeAt 10).node, (castTwice.placeAt 8).node] (castTwice.placeAt 6) :=
    .passing (c := castTwice.placeAt 2) rfl rfl <|
      .passing (c := castTwice.placeAt 4) rfl rfl <|
        .cast (c := castTwice.placeAt 5) ⟨rfl, rfl, rfl⟩ <|
          .cast ⟨rfl, rfl, rfl⟩ (.bare _)
  have hshape := (@wrapped_goes_by_outermost_known_type (declarations castTwice) castTwice.text
    _ _ _ hwraps).1 [] _ _ rfl (List.forall_mem_nil _) (by decide)
  refine ⟨hwraps, by decide, ?_⟩
  exact Possibility.couldBe_eq_false_iff.mpr (congrArg Shape.observable hshape)

section Spellings

variable {file : SourceFile} {p q e e' : Place} {type type' : Node}

theorem couldBe_ofFile (file : SourceFile) (aspect : Aspect) (p : Place) :
    (TypeOracle.ofFile file).couldBe aspect p =
      ((exprShape (declarations file) file.text p).on aspect).couldBe := by
  rw [TypeOracle.ofFile, TypeOracle.couldBe_ofDeclarations]

/-- Under casts in the same block an expression and a copy of it have the same shape. -/
theorem exprShape_eq_under_casts (hp : Within file.root p) (hq : Within file.root q)
    (hassert : Asserts p type e) (hcast : CastsTo q type' e')
    (hcopy : Node.Copy file.text e.node e'.node)
    (hblock : p.declaringScope? false = q.declaringScope? false) :
    exprShape (declarations file) file.text e = exprShape (declarations file) file.text e' := by
  have he : e ∈ p.children := (List.mem_filter.mp (List.mem_of_getElem? hassert.expression)).1
  have he' : e' ∈ q.children := (List.mem_filter.mp (List.mem_of_getElem? hcast.expression)).1
  refine exprShape_eq_of_copy (hp.child he) (hq.child he') hcopy fun hread name => ?_
  refine resolve?_children_eq hp hq he he' hcopy hread ?_
  refine resolve?_eq_of_same_block hp hq ?_ ?_ hblock name
  · rw [hassert.kind]
    rfl
  · rw [hcast.kind]
    rfl

end Spellings

/-- `<T>x` and `x as T` in the same block: the former is answered as `x` is, whatever the type. So
the two are answered alike exactly if the type says nothing or gives the answer of `x`. -/
theorem cast_spellings_agree_iff {file : SourceFile} {p q e e' : Place} {type type' : Node}
    (hp : p ∈ file.root.preorder) (hq : q ∈ file.root.preorder) (hassert : Asserts p type e)
    (hcast : CastsTo q type' e') (htype : Node.Copy file.text type type')
    (hcopy : Node.Copy file.text e.node e'.node)
    (hblock : p.declaringScope? false = q.declaringScope? false) (aspect : Aspect) :
    (TypeOracle.ofFile file).couldBe aspect p = (TypeOracle.ofFile file).couldBe aspect e ∧
    ((TypeOracle.ofFile file).couldBe aspect p = (TypeOracle.ofFile file).couldBe aspect q ↔
      typeShape file.text type = .unknown ∨
        ((typeShape file.text type).on aspect).couldBe =
          (TypeOracle.ofFile file).couldBe aspect e) := by
  have hexpression := exprShape_eq_under_casts (mem_preorder.mp hp) (mem_preorder.mp hq) hassert
    hcast hcopy hblock
  simp only [couldBe_ofFile, hassert.exprShape_eq, hcast.exprShape_eq, ← hexpression,
    ← typeShape_eq_of_copy htype]
  refine ⟨trivial, ?_⟩
  split
  · rename_i hunknown
    simp [hunknown]
  · rename_i hknown
    simp [hknown, eq_comm]

/-- `let s={};f(<any>s,s as any)` -/
def castToAny : SourceFile where
  path := ⟨"any.ts"⟩
  dialect := .typeScript
  text := "let s=\x7b\x7d;f(<any>s,s as any)"
  tree := .mk { kind := .program, stop := 27 } [
    .mk { kind := .other "lexical_declaration", stop := 9 } [
      .mk { kind := .variableDeclarator, start := 4, stop := 8 } [
        .mk { kind := .identifier, field := some .name, start := 4, stop := 5 } [],
        .mk { kind := .objectLiteral, field := some .value, start := 6, stop := 8 } []]],
    .mk { kind := .callExpression, start := 9, stop := 27 } [
      .mk { kind := .identifier, field := some .function, start := 9, stop := 10 } [],
      .mk { kind := .arguments, field := some .arguments, start := 10, stop := 27 } [
        .mk { kind := .typeAssertion, start := 11, stop := 17 } [
          .mk { kind := .typeArguments, start := 11, stop := 16 } [
            .mk { kind := .predefinedType, start := 12, stop := 15 } []],
          .mk { kind := .identifier, start := 16, stop := 17 } []],
        .mk { kind := .asExpression, start := 18, stop := 26 } [
          .mk { kind := .identifier, start := 18, stop := 19 } [],
          .mk { kind := .predefinedType, start := 23, stop := 26 } []]]]]

/-- A type that says nothing leaves `s` plain in the one spelling and in the other. -/
theorem castToAny_spellings_agree :
    Asserts (castToAny.placeAt 8) (castToAny.placeAt 10).node (castToAny.placeAt 11) ∧
      CastsTo (castToAny.placeAt 12) (castToAny.placeAt 14).node (castToAny.placeAt 13) ∧
      (TypeOracle.ofFile castToAny).couldBe .observable (castToAny.placeAt 11) = false ∧
      (TypeOracle.ofFile castToAny).couldBe .observable (castToAny.placeAt 8) =
        (TypeOracle.ofFile castToAny).couldBe .observable (castToAny.placeAt 12) := by
  have hassert : Asserts (castToAny.placeAt 8) (castToAny.placeAt 10).node
      (castToAny.placeAt 11) :=
    ⟨rfl, ⟨castToAny.placeAt 9, rfl, rfl, rfl⟩, rfl, by decide⟩
  have hcast : CastsTo (castToAny.placeAt 12) (castToAny.placeAt 14).node
      (castToAny.placeAt 13) :=
    ⟨rfl, rfl, rfl⟩
  have htype : Node.Copy castToAny.text (castToAny.placeAt 10).node (castToAny.placeAt 14).node :=
    .intro rfl rfl rfl (by decide) .nil
  have hcopy : Node.Copy castToAny.text (castToAny.placeAt 11).node (castToAny.placeAt 13).node :=
    .intro rfl rfl rfl (by decide) .nil
  exact ⟨hassert, hcast, by decide, (cast_spellings_agree_iff (placeAt_mem (by decide))
    (placeAt_mem (by decide)) hassert hcast htype hcopy rfl .observable).2.mpr
      (Or.inl (by decide))⟩

def subscriptionTo (receiver : Node) : Node :=
  let start := receiver.label.start
  let dot := receiver.label.stop
  .mk { kind := .other "expression_statement", start, stop := dot + 17 } [
    .mk { kind := .callExpression, start, stop := dot + 16 } [
      .mk { kind := .memberExpression, field := some .function, start, stop := dot + 10 } [
        receiver,
        .mk { kind := .other ".", named := false, start := dot, stop := dot + 1 } [],
        .mk { kind := .other "property_identifier", field := some .property, start := dot + 1,
              stop := dot + 10 } []],
      .mk { kind := .arguments, field := some .arguments, start := dot + 10, stop := dot + 16 } [
        .mk { kind := .other "(", named := false, start := dot + 10, stop := dot + 11 } [],
        .mk { kind := .identifier, start := dot + 11, stop := dot + 12 } [],
        .mk { kind := .other ",", named := false, start := dot + 12, stop := dot + 13 } [],
        .mk { kind := .identifier, start := dot + 14, stop := dot + 15 } [],
        .mk { kind := .other ")", named := false, start := dot + 15, stop := dot + 16 } []]],
    .mk { kind := .other ";", named := false, start := dot + 16, stop := dot + 17 } []]

/-- Two subscriptions to an object that is cast to a stream, the first cast spelled in front. -/
def castBothWays : SourceFile where
  path := ⟨"test.ts"⟩
  dialect := .typeScript
  text := "(<Subject>\x7b\x7d).subscribe(a, b);\n(\x7b\x7d as Subject).subscribe(a, b);\n"
  tree := .mk { kind := .program, stop := 64 } [
    subscriptionTo <| .mk { kind := .parenthesized, field := some .object, stop := 13 } [
      .mk { kind := .other "(", named := false, stop := 1 } [],
      .mk { kind := .typeAssertion, start := 1, stop := 12 } [
        .mk { kind := .typeArguments, start := 1, stop := 10 } [
          .mk { kind := .other "<", named := false, start := 1, stop := 2 } [],
          .mk { kind := .typeIdentifier, start := 2, stop := 9 } [],
          .mk { kind := .other ">", named := false, start := 9, stop := 10 } []],
        .mk { kind := .objectLiteral, start := 10, stop := 12 } [
          .mk { kind := .other "\x7b", named := false, start := 10, stop := 11 } [],
          .mk { kind := .other "\x7d", named := false, start := 11, stop := 12 } []]],
      .mk { kind := .other ")", named := false, start := 12, stop := 13 } []],
    subscriptionTo <| .mk
        { kind := .parenthesized, field := some .object, start := 31, stop := 46 } [
      .mk { kind := .other "(", named := false, start := 31, stop := 32 } [],
      .mk { kind := .asExpression, start := 32, stop := 45 } [
        .mk { kind := .objectLiteral, start := 32, stop := 34 } [
          .mk { kind := .other "\x7b", named := false, start := 32, stop := 33 } [],
          .mk { kind := .other "\x7d", named := false, start := 33, stop := 34 } []],
        .mk { kind := .other "as", named := false, start := 35, stop := 37 } [],
        .mk { kind := .typeIdentifier, start := 38, stop := 45 } []],
      .mk { kind := .other ")", named := false, start := 45, stop := 46 } []]]

/-- The object is taken for a stream in the second spelling of the cast and not in the first. -/
theorem castBothWays_spellings_differ :
    Asserts (castBothWays.placeAt 6) (castBothWays.placeAt 9).node (castBothWays.placeAt 11) ∧
      CastsTo (castBothWays.placeAt 29) (castBothWays.placeAt 34).node
        (castBothWays.placeAt 30) ∧
      Node.Copy castBothWays.text (castBothWays.placeAt 9).node (castBothWays.placeAt 34).node ∧
      Node.Copy castBothWays.text (castBothWays.placeAt 11).node (castBothWays.placeAt 30).node ∧
      (castBothWays.placeAt 6).declaringScope? false =
        (castBothWays.placeAt 29).declaringScope? false ∧
      (TypeOracle.ofFile castBothWays).couldBeObservable (castBothWays.placeAt 6) = false ∧
      (TypeOracle.ofFile castBothWays).couldBeObservable (castBothWays.placeAt 29) = true := by
  have hcopy : Node.Copy castBothWays.text (castBothWays.placeAt 11).node
      (castBothWays.placeAt 30).node :=
    .intro rfl rfl rfl (by decide) (.cons (.intro rfl rfl rfl (by decide) .nil)
      (.cons (.intro rfl rfl rfl (by decide) .nil) .nil))
  exact ⟨⟨rfl, ⟨castBothWays.placeAt 7, rfl, rfl, rfl⟩, rfl, by decide⟩, ⟨rfl, rfl, rfl⟩,
    .intro rfl rfl rfl (by decide) .nil, hcopy, rfl, by decide, by decide⟩

end Oracle

end ObserverLint
