import ObserverLint.Proofs.Parameters

namespace ObserverLint.Oracle

open Place
open SourceFile (placeAt_mem)

def IsName (n : Node) : Prop := n.kind = .identifier ∨ n.kind = .shorthandPattern

/-- The name stands in the pattern: the pattern is the name, or the name stands in a named part of
it that is no type. -/
inductive NameIn (source : String) : Node → String → Prop
  | whole {n : Node} : IsName n → NameIn source n (n.text source)
  | part {n c : Node} {name : String} : ¬ IsName n → c ∈ n.namedChildren →
      c.kind ≠ .annotatedType → NameIn source c name → NameIn source n name

section Patterns

variable {source : String} {n : Node} {name : String} {shape : Shape}

theorem patternNames_of_isName (h : IsName n) :
    patternNames source shape n = [(n.text source, shape)] := by
  rcases n with ⟨label, ns⟩
  have hkind : label.kind = .identifier ∨ label.kind = .shorthandPattern := h
  rcases hkind with hkind | hkind
  all_goals
    simp only [patternNames, hkind]
    rfl

theorem patternNames_of_not_isName (h : ¬ IsName n) :
    patternNames source shape n = partNames source n.children := by
  rcases n with ⟨label, ns⟩
  unfold patternNames
  split
  · rename_i hkind
    exact absurd (Or.inl hkind) h
  · rename_i hkind
    exact absurd (Or.inr hkind) h
  · rfl

theorem partNames_eq_flatMap (source : String) (ns : List Node) :
    partNames source ns =
      (ns.filter fun n => n.named && n.kind != .annotatedType).flatMap
        (patternNames source .unknown) := by
  induction ns with
  | nil => rfl
  | cons n ns ih =>
    rw [partNames, List.filter_cons]
    split
    · rw [ih, List.flatMap_cons]
    · exact ih

/-- Nothing is known about the names in a pattern of unknown shape. -/
theorem mem_patternNames_unknown (h : NameIn source n name) :
    (name, Shape.unknown) ∈ patternNames source .unknown n := by
  induction h with
  | whole hname =>
    rw [patternNames_of_isName hname]
    exact List.mem_singleton_self _
  | @part n c name hnot hc htype _ ih =>
    rw [patternNames_of_not_isName hnot, partNames_eq_flatMap]
    obtain ⟨hmem, hnamed⟩ := List.mem_filter.mp hc
    refine List.mem_flatMap.mpr ⟨c, List.mem_filter.mpr ⟨hmem, ?_⟩, ih⟩
    simp [hnamed, htype]

/-- Nothing is known about the parts of a destructured value, whatever is known about the value. -/
theorem mem_patternNames_of_not_isName (hnot : ¬ IsName n) (h : NameIn source n name) :
    (name, Shape.unknown) ∈ patternNames source shape n := by
  have hunknown := mem_patternNames_unknown h
  rw [patternNames_of_not_isName hnot] at hunknown ⊢
  exact hunknown

/-- A pattern leaves a name open if nothing is known about the value or the value is taken apart. -/
theorem BindsPattern.declares_open {p scope pattern : Place} {d : Declarations}
    (h : BindsPattern source p scope pattern)
    (hopen : declaredShape d source p = .unknown ∨ ¬ IsName pattern.node)
    (hname : NameIn source pattern.node name) :
    Declares d source p ⟨scope.address, name, .unknown⟩ := by
  refine .pattern h (mem_bindPattern ?_)
  rcases hopen with hshape | hnot
  · rw [hshape]
    exact mem_patternNames_unknown hname
  · exact mem_patternNames_of_not_isName hnot hname

end Patterns

/-- At `p` the name comes into the scope, and what it stands for is not known there. -/
inductive Introduces (source : String) (p : Place) : Place → String → Prop
  /-- `import { name as alias }` -/
  | renamedImport {scope name : Place} : p.kind = .importSpecifier →
      p.declaringScope? false = some scope → p.child? .alias = some name →
      Introduces source p scope (name.text source)
  /-- `import { name }` -/
  | namedImport {scope name : Place} : p.kind = .importSpecifier →
      p.declaringScope? false = some scope → p.child? .alias = none →
      p.child? .name = some name → Introduces source p scope (name.text source)
  /-- `import name`, `import * as name` and `import name = require(…)` -/
  | wholeImport {scope name : Place} : p.kind = .importClause ∨ p.kind = .namespaceImport ∨
      p.kind = .importRequireClause → p.declaringScope? false = some scope →
      name ∈ p.namedChildren → name.kind = .identifier →
      Introduces source p scope (name.text source)
  /-- `for (const name of …)`, whose variable belongs to the loop -/
  | loopVariable {keyword left : Place} {name : String} : p.kind = .forInStatement →
      p.child? .kind = some keyword → keyword.text source ≠ "var" →
      p.child? .left = some left → NameIn source left.node name → Introduces source p p name
  /-- `for (var name of …)`, whose variable rises to the function -/
  | risingLoopVariable {scope keyword left : Place} {name : String} : p.kind = .forInStatement →
      p.child? .kind = some keyword → keyword.text source = "var" →
      p.declaringScope? true = some scope → p.child? .left = some left →
      NameIn source left.node name → Introduces source p scope name
  /-- `catch (name)` and `name => …` -/
  | ownParameter {parameter : Place} {name : String} :
      p.kind = .catchClause ∨ p.kind = .arrowFunction → p.child? .parameter = some parameter →
      NameIn source parameter.node name → Introduces source p p name
  /-- a parameter with a node of its own and no type -/
  | untypedParameter {scope pattern : Place} {name : String} : IsParameter p →
      p.child? .type = none → p.declaringScope? true = some scope →
      p.child? .pattern = some pattern → NameIn source pattern.node name →
      Introduces source p scope name
  /-- a parameter without a node of its own, seen from its list -/
  | bareParameter {scope parameter pattern : Place} {name : String} : p.kind = .formalParameters →
      p.declaringScope? true = some scope → parameter ∈ p.namedChildren →
      BareParameter parameter pattern → NameIn source pattern.node name →
      Introduces source p scope name
  /-- `const { name } = …` -/
  | destructuredVariable {scope pattern : Place} {name : String} : p.kind = .variableDeclarator →
      p.declaringScope? (p.parent?.any fun q => q.kind == .variableDeclaration) = some scope →
      p.child? .name = some pattern → ¬ IsName pattern.node → NameIn source pattern.node name →
      Introduces source p scope name
  /-- a parameter that is taken apart, whether it has a type or not -/
  | destructuredParameter {scope pattern : Place} {name : String} : IsParameter p →
      p.declaringScope? true = some scope → p.child? .pattern = some pattern →
      ¬ IsName pattern.node → NameIn source pattern.node name → Introduces source p scope name

/-- Wherever a name is introduced, the scope gets a declaration that leaves everything open. -/
theorem Introduces.declares {source : String} {p scope : Place} {name : String}
    (h : Introduces source p scope name) (d : Declarations) :
    Declares d source p ⟨scope.address, name, .unknown⟩ := by
  cases h with
  | renamedImport hkind hscope halias => exact .imported (.renamed hkind halias) hscope
  | namedImport hkind hscope halias hname => exact .imported (.named hkind halias hname) hscope
  | wholeImport hkind hscope hname hidentifier =>
    exact .imported (.whole hkind hname hidentifier) hscope
  | loopVariable hkind hkeyword hnot hleft hname =>
    exact (BindsPattern.loopVariable hkind hkeyword hnot hleft).declares_open
      (Or.inl (by simp only [declaredShape, hkind])) hname
  | risingLoopVariable hkind hkeyword hvar hscope hleft hname =>
    exact (BindsPattern.risingLoopVariable hkind hkeyword hvar hscope hleft).declares_open
      (Or.inl (by simp only [declaredShape, hkind])) hname
  | ownParameter hkind hparameter hname =>
    have hshape : declaredShape d source p = .unknown := by
      rcases hkind with hkind | hkind <;> simp only [declaredShape, hkind]
    exact (BindsPattern.ownParameter hkind hparameter).declares_open (Or.inl hshape) hname
  | untypedParameter hparameter htype hscope hpattern hname =>
    have hshape : declaredShape d source p = .unknown := by
      rw [declaredShape_of_parameter hparameter, parameterShape, htype]
    exact (BindsPattern.parameter hparameter hscope hpattern).declares_open (Or.inl hshape) hname
  | bareParameter hkind hscope hparameter hbare hname =>
    exact (BindsPattern.bareParameter hkind hscope hparameter hbare).declares_open
      (Or.inl (by simp only [declaredShape, hkind])) hname
  | destructuredVariable hkind hscope hpattern hnot hname =>
    exact (BindsPattern.declarator hkind hscope hpattern).declares_open (Or.inr hnot) hname
  | destructuredParameter hparameter hscope hpattern hnot hname =>
    exact (BindsPattern.parameter hparameter hscope hpattern).declares_open (Or.inr hnot) hname

theorem Introduces.mem_contributions {file : SourceFile} {p scope : Place} {name : String}
    (h : Introduces file.text p scope name) (hp : p ∈ file.root.preorder) :
    ⟨scope.address, name, .unknown⟩ ∈ contributions file := by
  have hplace : p ∈ file.places := SourceFile.mem_places.mpr (mem_preorder.mp hp)
  obtain ⟨d, hd⟩ := bindingsAt_subset_contributions hplace
  exact hd (mem_bindingsAt_iff.mpr (h.declares d))

/-- One declaration that leaves everything open outweighs all others of the scope. -/
theorem couldBe_of_unknown_binding {d : Declarations} {source : String} {u scope : Place}
    (hkind : u.kind = .identifier) (htext : u.text source ≠ "undefined")
    (hnearest : NearestScope d.bindings u (u.text source) scope)
    (hopen : ⟨scope.address, u.text source, .unknown⟩ ∈ d.bindings) (aspect : Aspect) :
    (TypeOracle.ofDeclarations d source).couldBe aspect u = true := by
  rw [← Bool.not_eq_false, TypeOracle.couldBe_ofDeclarations, Possibility.couldBe_eq_false_iff,
    exprShape_identifier d hkind htext, Declarations.lookup_on_eq_no_iff_of_nearestScope hnearest]
  intro hall
  have hno := hall _ hopen ⟨rfl, rfl⟩
  rw [Shape.unknown_on] at hno
  cases hno

/-- A name that is introduced in a scope could be anything at each of its uses that the scope
decides about. What else is declared plays no part, and neither does the order of declarations. -/
theorem introduced_name_could_be_anything {file : SourceFile} {p scope u : Place}
    (hp : p ∈ file.root.preorder) (hkind : u.kind = .identifier)
    (htext : u.text file.text ≠ "undefined")
    (hintroduced : Introduces file.text p scope (u.text file.text))
    (hnearest : NearestScope (contributions file) u (u.text file.text) scope) :
    (TypeOracle.ofFile file).couldBeObservable u = true ∧
    (TypeOracle.ofFile file).couldBeFunction u = true ∧
    ∀ d : Declarations, d.bindings.Perm (contributions file) →
      (TypeOracle.ofDeclarations d file.text).couldBeObservable u = true ∧
      (TypeOracle.ofDeclarations d file.text).couldBeFunction u = true := by
  have hopen := hintroduced.mem_contributions hp
  have hany (d : Declarations) (hperm : d.bindings.Perm (contributions file)) (aspect : Aspect) :
      (TypeOracle.ofDeclarations d file.text).couldBe aspect u = true :=
    couldBe_of_unknown_binding hkind htext (hnearest.of_perm hperm.symm)
      (hperm.mem_iff.mpr hopen) aspect
  have hfile : (declarations file).bindings.Perm (contributions file) := by
    rw [declarations_bindings]
  refine ⟨hany _ hfile .observable, hany _ hfile .function, ?_⟩
  intro d hperm
  exact ⟨hany d hperm .observable, hany d hperm .function⟩

/-- `var s={};for(var{s}of t);s` -/
def shadowedByLoop : SourceFile where
  path := ⟨"loop.ts"⟩
  dialect := .typeScript
  text := "var s=\x7b\x7d;for(var\x7bs\x7dof t);s"
  tree := .mk { kind := .program, stop := 26 } [
    .mk { kind := .variableDeclaration, stop := 9 } [
      .mk { kind := .variableDeclarator, start := 4, stop := 8 } [
        .mk { kind := .identifier, field := some .name, start := 4, stop := 5 } [],
        .mk { kind := .objectLiteral, field := some .value, start := 6, stop := 8 } []]],
    .mk { kind := .forInStatement, start := 9, stop := 25 } [
      .mk { kind := .other "var", field := some .kind, named := false, start := 13,
            stop := 16 } [],
      .mk { kind := .objectPattern, field := some .left, start := 16, stop := 19 } [
        .mk { kind := .shorthandPattern, start := 17, stop := 18 } []],
      .mk { kind := .identifier, field := some (.other "right"), start := 22, stop := 23 } [],
      .mk { kind := .other "empty_statement", field := some (.other "body"), start := 24,
            stop := 25 } []],
    .mk { kind := .identifier, start := 25, stop := 26 } []]

/-- The plain object declared first does not decide about the name that the loop takes apart. -/
theorem shadowedByLoop_could_be_anything :
    Introduces shadowedByLoop.text (shadowedByLoop.placeAt 5) shadowedByLoop.root "s" ∧
      contributions shadowedByLoop = [⟨[], "s", .plain⟩, ⟨[], "s", .unknown⟩] ∧
      NearestScope (contributions shadowedByLoop) (shadowedByLoop.placeAt 11) "s"
        shadowedByLoop.root ∧
      (TypeOracle.ofFile shadowedByLoop).couldBeObservable (shadowedByLoop.placeAt 11) = true ∧
      (TypeOracle.ofFile shadowedByLoop).couldBeFunction (shadowedByLoop.placeAt 11) = true := by
  have hname : NameIn shadowedByLoop.text (shadowedByLoop.placeAt 7).node "s" :=
    .part (by unfold IsName; decide) (c := (shadowedByLoop.placeAt 8).node)
      List.mem_cons_self (by decide) (.whole (Or.inr rfl))
  have hintroduced : Introduces shadowedByLoop.text (shadowedByLoop.placeAt 5)
      shadowedByLoop.root "s" :=
    @Introduces.risingLoopVariable _ _ _ (shadowedByLoop.placeAt 6) (shadowedByLoop.placeAt 7) _
      rfl rfl (by decide) rfl rfl hname
  have hnearest : NearestScope (contributions shadowedByLoop) (shadowedByLoop.placeAt 11) "s"
      shadowedByLoop.root :=
    nearestScope_of_splitAt 1 rfl (by decide) (by decide)
  have hopen := introduced_name_could_be_anything (placeAt_mem (by decide))
    (u := shadowedByLoop.placeAt 11) rfl (by decide) hintroduced hnearest
  exact ⟨hintroduced, by decide, hnearest, hopen.1, hopen.2.1⟩

end ObserverLint.Oracle
