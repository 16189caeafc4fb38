import ObserverLint.Proofs.Bindings
import ObserverLint.Proofs.CursorWalk
import ObserverLint.Proofs.Resolution

namespace ObserverLint.Oracle

open Place
open SourceFile (placeAt_mem)

/-- The expression at `u` stands for a declared name: an identifier for itself, `this.f` for the
key of the field `f`. -/
inductive Refers (source : String) (u : Place) : String → Prop
  | identifier (hkind : u.kind = .identifier) (htext : u.text source ≠ "undefined") :
      Refers source u (u.text source)
  | field {object property : Place} (hkind : u.kind = .memberExpression)
      (hobject : u.child? .object = some object) (hthis : object.kind = .thisExpression)
      (hproperty : u.child? .property = some property) :
      Refers source u (fieldKey (property.text source))

theorem Refers.exprShape_eq {source : String} {u : Place} {name : String}
    (h : Refers source u name) (d : Declarations) : exprShape d source u = d.lookup u name := by
  cases h with
  | identifier hkind htext => exact exprShape_identifier d hkind htext
  | field hkind hobject hthis hproperty =>
    exact exprShape_thisMember d hkind hobject hthis hproperty

structure ResolvesTo (file : SourceFile) (u scope : Place) (name : String) : Prop where
  refers : Refers file.text u name
  nearest : NearestScope (contributions file) u name scope

/-- A declaration of the name in the scope leaves the question open or answers it with yes. -/
def DeclaredPossible (file : SourceFile) (aspect : Aspect) (scope : Place) (name : String) : Prop :=
  ∃ b ∈ contributions file, b.IsAt scope name ∧ b.shape.on aspect ≠ .no

theorem ResolvesTo.couldBe_iff {file : SourceFile} {u scope : Place} {name : String}
    (h : ResolvesTo file u scope name) (aspect : Aspect) :
    (TypeOracle.ofFile file).couldBe aspect u = true ↔ DeclaredPossible file aspect scope name := by
  have hnearest := h.nearest
  rw [← declarations_bindings] at hnearest
  rw [← not_iff_not, Bool.not_eq_true, TypeOracle.ofFile, TypeOracle.couldBe_ofDeclarations,
    Possibility.couldBe_eq_false_iff, h.refers.exprShape_eq,
    Declarations.lookup_on_eq_no_iff_of_nearestScope hnearest, declarations_bindings]
  simp [DeclaredPossible]

/-- `q` is a variable or field without a type, and it declares the name in the scope whatever was
read before it. -/
structure UntypedDeclaration (file : SourceFile) (q scope : Place) (name : String) : Prop where
  inFile : q ∈ file.root.preorder
  declares : q.kind = .variableDeclarator ∨ q.kind = .publicFieldDefinition ∨
    q.kind = .fieldDefinition
  untyped : q.child? .type = none
  binds : ∀ d, ∃ b ∈ bindingsAt d file.text q, b.IsAt scope name

theorem UntypedDeclaration.possible_of_no_value {file : SourceFile} {q scope : Place}
    {name : String} (h : UntypedDeclaration file q scope name) (hvalue : q.child? .value = none)
    (aspect : Aspect) : DeclaredPossible file aspect scope name := by
  have hq : q ∈ file.places := SourceFile.mem_places.mpr (mem_preorder.mp h.inFile)
  obtain ⟨d, hd⟩ := bindingsAt_subset_contributions hq
  obtain ⟨b, hb, hat⟩ := h.binds d
  have hshape : b.shape = .unknown := by
    rcases shape_of_declaration h.declares hb with heq | heq
    · rw [heq, bindingShape_of_no_value h.untyped hvalue]
    · exact heq
  refine ⟨b, hd hb, hat, ?_⟩
  rw [hshape, Shape.unknown_on]
  exact Possibility.noConfusion

def assignmentExpression : Kind := .other "assignment_expression"

def AssignedStream (file : SourceFile) (scope : Place) (name : String) : Prop :=
  ∃ a ∈ file.root.preorder, ∃ left right, a.kind = assignmentExpression ∧
    a.child? .left = some left ∧ a.child? (.other "right") = some right ∧
    ResolvesTo file left scope name ∧ (TypeOracle.ofFile file).couldBeObservable right = true

def UsesCouldBeStreams (file : SourceFile) (scope : Place) (name : String) : Prop :=
  ∀ u ∈ file.root.preorder, ResolvesTo file u scope name →
    (TypeOracle.ofFile file).couldBeObservable u = true

theorem declarations_eq_without_assignments (file : SourceFile) :
    declarations file =
      (file.places.filter fun p => p.kind != assignmentExpression).foldl (collectAt file.text)
        (classDeclarations file.text file.places) := by
  rw [declarations, List.foldl_filter]
  apply List.foldl_ext
  intro d p _
  by_cases hkind : p.kind = assignmentExpression
  · have hnone : bindingsAt d file.text p = [] := bindingsAt_eq_nil (by rw [hkind]; rfl)
    simp [collectAt, hnone, hkind, Declarations.addBindings]
  · simp [hkind]

theorem usesCouldBeStreams_iff {file : SourceFile} {scope : Place} {name : String}
    (hassigned : AssignedStream file scope name) :
    UsesCouldBeStreams file scope name ↔ DeclaredPossible file .observable scope name := by
  constructor
  · intro huses
    -- The left side of the assignment is itself a use.
    obtain ⟨a, ha, left, -, -, hleft, -, hresolves, -⟩ := hassigned
    have hmem : left ∈ file.root.preorder :=
      mem_preorder.mpr ((mem_preorder.mp ha).child (child?_mem hleft))
    exact (hresolves.couldBe_iff .observable).mp (huses left hmem hresolves)
  · intro hpossible u _ hresolves
    exact (hresolves.couldBe_iff .observable).mpr hpossible

/-- A name declared without a type and assigned what could be a stream: its uses could be streams
exactly if one of its declarations leaves that open, as one without a value does. The assignments
of the file play no part. -/
theorem reassigned_uses_go_by_declarations {file : SourceFile} {q scope : Place} {name : String}
    (hdeclared : UntypedDeclaration file q scope name)
    (hassigned : AssignedStream file scope name) :
    (UsesCouldBeStreams file scope name ↔ DeclaredPossible file .observable scope name) ∧
    (q.child? .value = none → UsesCouldBeStreams file scope name) ∧
    declarations file =
      (file.places.filter fun p => p.kind != assignmentExpression).foldl (collectAt file.text)
        (classDeclarations file.text file.places) := by
  have hiff := usesCouldBeStreams_iff hassigned
  refine ⟨hiff, ?_, declarations_eq_without_assignments file⟩
  intro hvalue
  exact hiff.mpr (hdeclared.possible_of_no_value hvalue .observable)

/-- `class C{f;m(){this.f=t;this.f}}` -/
def assignedField : SourceFile where
  path := ⟨"field.ts"⟩
  dialect := .typeScript
  text := "class C\x7bf;m()\x7bthis.f=t;this.f\x7d\x7d"
  tree := .mk { kind := .program, stop := 31 } [
    .mk { kind := .classDeclaration, stop := 31 } [
      .mk { kind := .typeIdentifier, field := some .name, start := 6, stop := 7 } [],
      .mk { kind := .classBody, field := some (.other "body"), start := 7, stop := 31 } [
        .mk { kind := .publicFieldDefinition, start := 8, stop := 9 } [
          .mk { kind := .other "property_identifier", field := some .name, start := 8,
                stop := 9 } []],
        .mk { kind := .methodDefinition, start := 10, stop := 30 } [
          .mk { kind := .statementBlock, field := some (.other "body"), start := 13,
                stop := 30 } [
            .mk { kind := .other "assignment_expression", start := 14, stop := 22 } [
              .mk { kind := .memberExpression, field := some .left, start := 14, stop := 20 } [
                .mk { kind := .thisExpression, field := some .object, start := 14,
                      stop := 18 } [],
                .mk { kind := .other "property_identifier", field := some .property, start := 19,
                      stop := 20 } []],
              .mk { kind := .identifier, field := some (.other "right"), start := 21,
                    stop := 22 } []],
            .mk { kind := .memberExpression, start := 23, stop := 29 } [
              .mk { kind := .thisExpression, field := some .object, start := 23, stop := 27 } [],
              .mk { kind := .other "property_identifier", field := some .property, start := 28,
                    stop := 29 } []]]]]]]

theorem assignedField_uses_possible :
    UntypedDeclaration assignedField (assignedField.placeAt 4) (assignedField.placeAt 3)
        "this.f" ∧
      AssignedStream assignedField (assignedField.placeAt 3) "this.f" ∧
      UsesCouldBeStreams assignedField (assignedField.placeAt 3) "this.f" := by
  have hdeclared : UntypedDeclaration assignedField (assignedField.placeAt 4)
      (assignedField.placeAt 3) "this.f" :=
    ⟨placeAt_mem (by decide), by decide, rfl,
      fun _ => ⟨⟨[1, 0], "this.f", .unknown⟩, List.mem_singleton_self _, by decide⟩⟩
  have hleft : ResolvesTo assignedField (assignedField.placeAt 9) (assignedField.placeAt 3)
      "this.f" :=
    ⟨@Refers.field _ _ (assignedField.placeAt 10) (assignedField.placeAt 11) rfl rfl rfl rfl,
      nearestScope_of_splitAt 4 rfl (by decide) (by decide)⟩
  have hassigned : AssignedStream assignedField (assignedField.placeAt 3) "this.f" :=
    ⟨assignedField.placeAt 8, placeAt_mem (by decide), assignedField.placeAt 9,
      assignedField.placeAt 12, rfl, rfl, rfl, hleft, by decide⟩
  exact ⟨hdeclared, hassigned, (reassigned_uses_go_by_declarations hdeclared hassigned).2.1 rfl⟩

/-- A variable with a plain value that is assigned something unknown, and a subscription to it. -/
def assignedVariable : SourceFile where
  path := ⟨"test.ts"⟩
  dialect := .typeScript
  text := "let s = \x7b\x7d;\ns = t;\ns.subscribe(a, b);\n"
  tree := .mk { kind := .program, stop := 38 } [
    .mk { kind := .other "lexical_declaration", stop := 11 } [
      .mk { kind := .other "let", field := some .kind, named := false, stop := 3 } [],
      .mk { kind := .variableDeclarator, start := 4, stop := 10 } [
        .mk { kind := .identifier, field := some .name, start := 4, stop := 5 } [],
        .mk { kind := .other "=", named := false, start := 6, stop := 7 } [],
        .mk { kind := .objectLiteral, field := some .value, start := 8, stop := 10 } [
          .mk { kind := .other "\x7b", named := false, start := 8, stop := 9 } [],
          .mk { kind := .other "\x7d", named := false, start := 9, stop := 10 } []]],
      .mk { kind := .other ";", named := false, start := 10, stop := 11 } []],
    .mk { kind := .other "expression_statement", start := 12, stop := 18 } [
      .mk { kind := .other "assignment_expression", start := 12, stop := 17 } [
        .mk { kind := .identifier, field := some .left, start := 12, stop := 13 } [],
        .mk { kind := .other "=", named := false, start := 14, stop := 15 } [],
        .mk { kind := .identifier, field := some (.other "right"), start := 16, stop := 17 } []],
      .mk { kind := .other ";", named := false, start := 17, stop := 18 } []],
    subscription 19]

/-- The assignment does not keep the subscription from passing for one to a plain object. -/
theorem assignedVariable_use_ruled_out :
    UntypedDeclaration assignedVariable (assignedVariable.placeAt 3) assignedVariable.root "s" ∧
      AssignedStream assignedVariable assignedVariable.root "s" ∧
      ResolvesTo assignedVariable (assignedVariable.placeAt 19) assignedVariable.root "s" ∧
      (TypeOracle.ofFile assignedVariable).couldBeObservable (assignedVariable.placeAt 19) =
        false ∧
      ¬ UsesCouldBeStreams assignedVariable assignedVariable.root "s" := by
  have hleft : ResolvesTo assignedVariable (assignedVariable.placeAt 12) assignedVariable.root
      "s" :=
    ⟨.identifier rfl (by decide), nearestScope_of_splitAt 3 rfl (by decide) (by decide)⟩
  have huse : ResolvesTo assignedVariable (assignedVariable.placeAt 19) assignedVariable.root
      "s" :=
    ⟨.identifier rfl (by decide), nearestScope_of_splitAt 4 rfl (by decide) (by decide)⟩
  have hruled : (TypeOracle.ofFile assignedVariable).couldBeObservable
      (assignedVariable.placeAt 19) = false := by
    decide
  refine ⟨⟨placeAt_mem (by decide), by decide, rfl, ?_⟩, ?_, huse, hruled, ?_⟩
  · intro d
    exact ⟨⟨[], "s", .plain⟩, List.mem_singleton_self _, by decide⟩
  · exact ⟨assignedVariable.placeAt 11, placeAt_mem (by decide), assignedVariable.placeAt 12,
      assignedVariable.placeAt 14, rfl, rfl, rfl, hleft, by decide⟩
  · intro huses
    rw [huses _ (placeAt_mem (by decide)) huse] at hruled
    cases hruled

end ObserverLint.Oracle
