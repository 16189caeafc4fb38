import ObserverLint.Oracle.Collect
import ObserverLint.Proofs.Expressions

namespace ObserverLint

namespace Kind

theorem isBlockScope_of_isFunctionScope {kind : Kind} (h : kind.isFunctionScope = true) :
    kind.isBlockScope = true := by
  cases kind <;> simp_all [isBlockScope, isFunctionScope]

/-- The kinds of nodes at which something other than a class is declared. -/
def isDeclaration : Kind → Bool
  | variableDeclarator | forInStatement | importSpecifier | importClause | namespaceImport
  | importRequireClause | functionDeclaration | generatorFunctionDeclaration | requiredParameter
  | optionalParameter | formalParameters | arrowFunction | catchClause | publicFieldDefinition
  | fieldDefinition => true
  | _ => false

end Kind

namespace Place

/-- Looking upward for a place of some sort stops, at the latest, at the first such place known. -/
theorem within_of_find?_ancestors {t : Node} {q a owner : Place} {sort : Place → Bool}
    (hq : Within (root t) q) (howner : owner ∈ q.ancestors) (hsort : sort owner = true)
    (h : q.ancestors.find? sort = some a) : Within owner a := by
  induction hq with
  | refl => simp [ancestors, lineage, root] at howner
  | @child p c hp hc ih =>
    rw [ancestors_child hc] at howner h
    rw [List.find?_cons] at h
    split at h
    · obtain rfl := Option.some.inj h
      exact (within_of_mem_selfAndAncestors hp howner).2
    · rename_i hno
      -- The parent is not of the sort, so the owner is above it.
      rcases List.mem_cons.mp howner with rfl | habove
      · rw [hsort] at hno
        cases hno
      · exact ih habove h

/-- Nothing declared inside a function rises out of it. -/
theorem within_of_declaringScope? {t : Node} {q scope owner : Place} {hoisted : Bool}
    (hq : Within (root t) q) (howner : owner ∈ q.ancestors)
    (hfunction : owner.kind.isFunctionScope = true)
    (h : q.declaringScope? hoisted = some scope) : Within owner scope := by
  refine within_of_find?_ancestors hq howner ?_ h
  cases hoisted
  · exact Kind.isBlockScope_of_isFunctionScope hfunction
  · exact hfunction

theorem within_of_declaringScope?_eq_some {t : Node} {q scope : Place} {hoisted : Bool}
    (hq : Within (root t) q) (h : q.declaringScope? hoisted = some scope) :
    Within (root t) scope :=
  within_of_mem_ancestors hq (List.mem_of_find?_eq_some h)

end Place

namespace Oracle

open Place

section Patterns

variable {source : String} {b : Binding}

theorem scope_of_mem_bindPattern {scope pattern : Place} {shape : Shape}
    (h : b ∈ bindPattern source scope pattern shape) : b.scope = scope.address := by
  obtain ⟨⟨name, part⟩, -, rfl⟩ := List.mem_map.mp h
  rfl

theorem mem_bindPattern {scope pattern : Place} {shape part : Shape} {name : String}
    (h : (name, part) ∈ patternNames source shape pattern.node) :
    ⟨scope.address, name, part⟩ ∈ bindPattern source scope pattern shape :=
  List.mem_map.mpr ⟨(name, part), h, rfl⟩

mutual

theorem shape_of_mem_patternNames {shape part : Shape} {name : String} :
    ∀ n, (name, part) ∈ patternNames source shape n → part = shape ∨ part = .unknown
  | .mk label ns, h => by
    unfold patternNames at h
    split at h
    · exact Or.inl (Prod.mk.inj (List.mem_singleton.mp h)).2
    · exact Or.inl (Prod.mk.inj (List.mem_singleton.mp h)).2
    · exact Or.inr (shape_of_mem_partNames ns h)

theorem shape_of_mem_partNames {part : Shape} {name : String} :
    ∀ ns, (name, part) ∈ partNames source ns → part = .unknown
  | [], h => by cases h
  | n :: ns, h => by
    unfold partNames at h
    split at h
    · rcases List.mem_append.mp h with hhere | hrest
      · exact (or_self_iff).mp (shape_of_mem_patternNames n hhere)
      · exact shape_of_mem_partNames ns hrest
    · exact shape_of_mem_partNames ns h

end

theorem shape_of_mem_bindPattern {scope pattern : Place} {shape : Shape}
    (h : b ∈ bindPattern source scope pattern shape) : b.shape = shape ∨ b.shape = .unknown := by
  obtain ⟨⟨name, part⟩, hpart, rfl⟩ := List.mem_map.mp h
  exact shape_of_mem_patternNames _ hpart

end Patterns

def IsParameter (p : Place) : Prop := p.kind = .requiredParameter ∨ p.kind = .optionalParameter

/-- The pattern of a parameter that stands in a list without a type or a node of its own: the
parameter itself, or what stands before its default value. -/
inductive BareParameter : Place → Place → Prop
  | pattern {parameter : Place} : parameter.kind = .identifier ∨ parameter.kind = .objectPattern ∨
      parameter.kind = .arrayPattern ∨ parameter.kind = .restPattern →
      BareParameter parameter parameter
  | default {parameter left : Place} : parameter.kind = .assignmentPattern →
      parameter.child? .left = some left → BareParameter parameter left

theorem barePattern?_eq_some_iff {parameter pattern : Place} :
    barePattern? parameter = some pattern ↔ BareParameter parameter pattern := by
  constructor
  · intro h
    unfold barePattern? at h
    cases hkind : parameter.kind
    all_goals simp only [hkind] at h
    case identifier | objectPattern | arrayPattern | restPattern =>
      obtain rfl := Option.some.inj h
      exact .pattern (by simp [hkind])
    case assignmentPattern => exact .default hkind h
    all_goals cases h
  · intro h
    cases h with
    | pattern hkind => rcases hkind with h | h | h | h <;> simp only [barePattern?, h]
    | default hkind hleft => simp only [barePattern?, hkind, hleft]

theorem BareParameter.kind_ne_comment {parameter pattern : Place}
    (h : BareParameter parameter pattern) : parameter.kind ≠ .comment := by
  intro hcomment
  cases h with
  | pattern hkind => simp [hcomment] at hkind
  | default hkind => simp [hcomment] at hkind

/-- At `p` the names of the pattern are declared in the scope. -/
inductive BindsPattern (source : String) (p : Place) : Place → Place → Prop
  | declarator {scope pattern : Place} : p.kind = .variableDeclarator →
      p.declaringScope? (p.parent?.any fun q => q.kind == .variableDeclaration) = some scope →
      p.child? .name = some pattern → BindsPattern source p scope pattern
  | loopVariable {keyword pattern : Place} : p.kind = .forInStatement →
      p.child? .kind = some keyword → keyword.text source ≠ "var" →
      p.child? .left = some pattern → BindsPattern source p p pattern
  | risingLoopVariable {scope keyword pattern : Place} : p.kind = .forInStatement →
      p.child? .kind = some keyword → keyword.text source = "var" →
      p.declaringScope? true = some scope → p.child? .left = some pattern →
      BindsPattern source p scope pattern
  | ownParameter {pattern : Place} : p.kind = .catchClause ∨ p.kind = .arrowFunction →
      p.child? .parameter = some pattern → BindsPattern source p p pattern
  | parameter {scope pattern : Place} : IsParameter p → p.declaringScope? true = some scope →
      p.child? .pattern = some pattern → BindsPattern source p scope pattern
  | bareParameter {scope parameter pattern : Place} : p.kind = .formalParameters →
      p.declaringScope? true = some scope → parameter ∈ p.namedChildren →
      BareParameter parameter pattern → BindsPattern source p scope pattern

inductive DeclaresField (source : String) (q body : Place) : String → Prop
  /-- `f = …` among the members of the class -/
  | definition {name : Place} : q.kind = .publicFieldDefinition ∨ q.kind = .fieldDefinition →
      ((q.child? .name).orElse fun _ => q.child? .property) = some name →
      q.enclosingClassBody? = some body → DeclaresField source q body (name.text source)
  /-- `private f` or `readonly f` among the parameters of a function -/
  | parameter {pattern scope : Place} : IsParameter q → isParameterProperty q = true →
      q.child? .pattern = some pattern → pattern.kind = .identifier →
      q.declaringScope? true = some scope → q.enclosingClassBody? = some body →
      DeclaresField source q body (pattern.text source)

inductive Imports (p : Place) : Place → Prop
  | renamed {name : Place} : p.kind = .importSpecifier → p.child? .alias = some name →
      Imports p name
  | named {name : Place} : p.kind = .importSpecifier → p.child? .alias = none →
      p.child? .name = some name → Imports p name
  | whole {name : Place} : p.kind = .importClause ∨ p.kind = .namespaceImport ∨
      p.kind = .importRequireClause → name ∈ p.namedChildren → name.kind = .identifier →
      Imports p name

def declaredShape (d : Declarations) (source : String) (p : Place) : Shape :=
  match p.kind with
  | .variableDeclarator | .publicFieldDefinition | .fieldDefinition => bindingShape d source p
  | .requiredParameter | .optionalParameter => parameterShape source p
  | _ => .unknown

/-- What is declared at `p`, given what was collected before. -/
inductive Declares (d : Declarations) (source : String) (p : Place) : Binding → Prop
  | pattern {scope pattern : Place} {b : Binding} : BindsPattern source p scope pattern →
      b ∈ bindPattern source scope pattern (declaredShape d source p) → Declares d source p b
  | field {body : Place} {f : String} : DeclaresField source p body f →
      Declares d source p ⟨body.address, fieldKey f, declaredShape d source p⟩
  | function {name scope : Place} :
      p.kind = .functionDeclaration ∨ p.kind = .generatorFunctionDeclaration →
      p.child? .name = some name → p.declaringScope? false = some scope →
      Declares d source p ⟨scope.address, name.text source, .ofFunction⟩
  | imported {name scope : Place} : Imports p name → p.declaringScope? false = some scope →
      Declares d source p ⟨scope.address, name.text source, .unknown⟩

-- No other module opens `bindingsAt` at a place that is not fixed.
section Reading

variable {d e : Declarations} {source : String} {p : Place} {b : Binding}

theorem bindingsAt_parameter (h : IsParameter p) :
    bindingsAt d source p = parameterField source p ++ parameterNames source p := by
  rcases h with h | h <;> simp only [bindingsAt, h]

theorem bindingsAt_variable {pattern scope : Place} (hkind : p.kind = .variableDeclarator)
    (hpattern : p.child? .name = some pattern)
    (hscope : p.declaringScope? (p.parent?.any fun q => q.kind == .variableDeclaration) =
      some scope) :
    bindingsAt d source p = bindPattern source scope pattern (bindingShape d source p) := by
  simp only [bindingsAt, hkind, hpattern, hscope]

theorem bindingsAt_eq_nil (h : p.kind.isDeclaration = false) : bindingsAt d source p = [] := by
  unfold bindingsAt
  cases hkind : p.kind <;> simp_all [Kind.isDeclaration]

/-- What was collected before has a say only through the value of the declaration. -/
theorem bindingsAt_congr (h : declaredShape d source p = declaredShape e source p) :
    bindingsAt d source p = bindingsAt e source p := by
  unfold bindingsAt
  unfold declaredShape at h
  cases hkind : p.kind
  all_goals simp only [hkind] at h
  case variableDeclarator | publicFieldDefinition | fieldDefinition => simp only [h]
  all_goals rfl

theorem declaredShape_of_variable (h : p.kind = .variableDeclarator ∨
      p.kind = .publicFieldDefinition ∨ p.kind = .fieldDefinition) :
    declaredShape d source p = bindingShape d source p := by
  rcases h with h | h | h <;> simp only [declaredShape, h]

theorem declaredShape_of_parameter (h : IsParameter p) :
    declaredShape d source p = parameterShape source p := by
  rcases h with h | h <;> simp only [declaredShape, h]

theorem declaredShape_of_function (h : p.kind.isFunctionScope = true) :
    declaredShape d source p = .unknown := by
  unfold declaredShape
  cases hkind : p.kind <;> simp_all [Kind.isFunctionScope]

/-- A pattern belongs to the place itself or to a scope around it. -/
theorem BindsPattern.scope_eq {scope pattern : Place} (h : BindsPattern source p scope pattern) :
    scope = p ∨ ∃ hoisted, p.declaringScope? hoisted = some scope := by
  cases h with
  | declarator _ hscope | risingLoopVariable _ _ _ hscope | parameter _ hscope
  | bareParameter _ hscope => exact Or.inr ⟨_, hscope⟩
  | loopVariable | ownParameter => exact Or.inl rfl

/-- The names of a pattern are declared one after the other. -/
theorem BindsPattern.infix_bindingsAt {scope pattern : Place}
    (h : BindsPattern source p scope pattern) (d : Declarations) :
    bindPattern source scope pattern (declaredShape d source p) <:+: bindingsAt d source p := by
  cases h with
  | declarator hkind hscope hpattern =>
    rw [bindingsAt_variable hkind hpattern hscope, declaredShape_of_variable (Or.inl hkind)]
  | loopVariable hkind hkeyword hvar hpattern =>
    simp only [bindingsAt, declaredShape, hkind, hkeyword, hpattern, if_neg hvar]
    exact List.infix_rfl
  | risingLoopVariable hkind hkeyword hvar hscope hpattern =>
    simp only [bindingsAt, declaredShape, hkind, hkeyword, hpattern, if_pos hvar, hscope]
    exact List.infix_rfl
  | ownParameter hkind hpattern =>
    rcases hkind with hkind | hkind
    all_goals
      simp only [bindingsAt, declaredShape, hkind, hpattern]
      exact List.infix_rfl
  | parameter hparameter hscope hpattern =>
    rw [bindingsAt_parameter hparameter, declaredShape_of_parameter hparameter]
    simp only [parameterNames, hscope, hpattern]
    exact (List.suffix_append _ _).isInfix
  | @bareParameter _ parameter _ hkind hscope hparameter hbare =>
    simp only [bindingsAt, declaredShape, hkind, hscope, List.flatMap_def]
    refine List.infix_of_mem_flatten (List.mem_map.mpr ⟨_, List.mem_filterMap.mpr ?_, rfl⟩)
    exact ⟨parameter, hparameter, barePattern?_eq_some_iff.mpr hbare⟩

theorem Imports.mem_bindingsAt {name scope : Place} (h : Imports p name)
    (hscope : p.declaringScope? false = some scope) :
    ⟨scope.address, name.text source, .unknown⟩ ∈ bindingsAt d source p := by
  have himport : ⟨scope.address, name.text source, .unknown⟩ ∈ bindImport source p name := by
    simp [bindImport, hscope]
  cases h with
  | renamed hkind halias =>
    simp only [bindingsAt, hkind, halias]
    exact himport
  | named hkind halias hname =>
    simp only [bindingsAt, hkind, halias, hname]
    exact himport
  | whole hkind hname hidentifier =>
    rcases hkind with hkind | hkind | hkind
    all_goals
      simp only [bindingsAt, hkind]
      exact List.mem_flatMap.mpr
        ⟨name, List.mem_filter.mpr ⟨hname, by simp [hidentifier]⟩, himport⟩

theorem Declares.mem_bindingsAt (h : Declares d source p b) : b ∈ bindingsAt d source p := by
  cases h with
  | pattern hbinds hb => exact (hbinds.infix_bindingsAt d).subset hb
  | field hfield =>
    cases hfield with
    | definition hkind hname hbody =>
      rw [declaredShape_of_variable (Or.inr hkind)]
      rcases hkind with hkind | hkind
      all_goals
        simp only [bindingsAt, hkind, hname, hbody]
        exact List.mem_singleton_self _
    | parameter hparameter hproperty hpattern hidentifier hscope hbody =>
      rw [declaredShape_of_parameter hparameter, bindingsAt_parameter hparameter]
      apply List.mem_append_left
      simp [parameterField, hpattern, hscope, hbody, hproperty, hidentifier]
  | function hkind hname hscope =>
    rcases hkind with hkind | hkind <;> simp [bindingsAt, hkind, hname, hscope]
  | imported himports hscope => exact himports.mem_bindingsAt hscope

theorem declares_of_import {name : Place} (himports : Imports p name)
    (h : b ∈ bindImport source p name) : Declares d source p b := by
  unfold bindImport at h
  split at h
  · rename_i scope hscope
    rw [List.mem_singleton.mp h]
    exact .imported himports hscope
  · cases h

theorem mem_parameterField (hparameter : IsParameter p) (h : b ∈ parameterField source p) :
    ∃ body f, DeclaresField source p body f ∧
      b = ⟨body.address, fieldKey f, parameterShape source p⟩ := by
  unfold parameterField at h
  split at h
  · rename_i pattern scope body hpattern hscope hbody
    split at h
    · rename_i hproperty
      obtain ⟨hproperty, hidentifier⟩ := Bool.and_eq_true_iff.mp hproperty
      exact ⟨body, _, .parameter hparameter hproperty hpattern (beq_iff_eq.mp hidentifier) hscope
        hbody, List.mem_singleton.mp h⟩
    · cases h
  · cases h

theorem mem_parameterNames (h : b ∈ parameterNames source p) :
    ∃ pattern scope, p.child? .pattern = some pattern ∧ p.declaringScope? true = some scope ∧
      b ∈ bindPattern source scope pattern (parameterShape source p) := by
  unfold parameterNames at h
  split at h
  · rename_i pattern scope hpattern hscope
    exact ⟨pattern, scope, hpattern, hscope, h⟩
  · cases h

theorem declares_of_parameter (hparameter : IsParameter p)
    (h : b ∈ parameterField source p ++ parameterNames source p) : Declares d source p b := by
  have hshape := @declaredShape_of_parameter d source p hparameter
  rcases List.mem_append.mp h with hfield | hname
  · obtain ⟨body, f, hdeclares, rfl⟩ := mem_parameterField hparameter hfield
    exact hshape ▸ .field hdeclares
  · obtain ⟨pattern, scope, hpattern, hscope, hb⟩ := mem_parameterNames hname
    exact .pattern (.parameter hparameter hscope hpattern) (hshape ▸ hb)

theorem declares_of_loop (hkind : p.kind = .forInStatement) (h : b ∈ bindingsAt d source p) :
    Declares d source p b := by
  have hshape : declaredShape d source p = .unknown := by simp only [declaredShape, hkind]
  simp only [bindingsAt, hkind] at h
  split at h
  · rename_i keyword left hkeyword hleft
    split at h
    · rename_i hvar
      split at h
      · rename_i scope hscope
        exact .pattern (.risingLoopVariable hkind hkeyword hvar hscope hleft) (hshape ▸ h)
      · cases h
    · rename_i hvar
      exact .pattern (.loopVariable hkind hkeyword hvar hleft) (hshape ▸ h)
  · cases h

theorem declares_of_importSpecifier (hkind : p.kind = .importSpecifier)
    (h : b ∈ bindingsAt d source p) : Declares d source p b := by
  simp only [bindingsAt, hkind] at h
  cases halias : p.child? .alias with
  | some name =>
    simp only [halias] at h
    exact declares_of_import (.renamed hkind halias) h
  | none =>
    simp only [halias] at h
    cases hname : p.child? .name with
    | some name =>
      simp only [hname] at h
      exact declares_of_import (.named hkind halias hname) h
    | none =>
      simp only [hname] at h
      cases h

theorem declares_of_parameterList (hkind : p.kind = .formalParameters)
    (h : b ∈ bindingsAt d source p) : Declares d source p b := by
  have hshape : declaredShape d source p = .unknown := by simp only [declaredShape, hkind]
  simp only [bindingsAt, hkind] at h
  split at h
  · rename_i scope hscope
    obtain ⟨pattern, hpattern, hb⟩ := List.mem_flatMap.mp h
    obtain ⟨parameter, hparameter, hbare⟩ := List.mem_filterMap.mp hpattern
    exact .pattern (.bareParameter hkind hscope hparameter (barePattern?_eq_some_iff.mp hbare))
      (hshape ▸ hb)
  · cases h

theorem declares_of_mem_bindingsAt (h : b ∈ bindingsAt d source p) : Declares d source p b := by
  cases hkind : p.kind
  case requiredParameter | optionalParameter =>
    have hparameter : IsParameter p := by simp [IsParameter, hkind]
    exact declares_of_parameter hparameter (bindingsAt_parameter hparameter ▸ h)
  case forInStatement => exact declares_of_loop hkind h
  case importSpecifier => exact declares_of_importSpecifier hkind h
  case formalParameters => exact declares_of_parameterList hkind h
  all_goals simp only [bindingsAt, hkind] at h
  case variableDeclarator =>
    split at h
    · rename_i pattern scope hpattern hscope
      rw [← declaredShape_of_variable (Or.inl hkind)] at h
      exact .pattern (.declarator hkind hscope hpattern) h
    · cases h
  case importClause | namespaceImport | importRequireClause =>
    obtain ⟨name, hname, hb⟩ := List.mem_flatMap.mp h
    obtain ⟨hmem, hidentifier⟩ := List.mem_filter.mp hname
    exact declares_of_import (.whole (by simp [hkind]) hmem (beq_iff_eq.mp hidentifier)) hb
  case functionDeclaration | generatorFunctionDeclaration =>
    split at h
    · rename_i name scope hname hscope
      rw [List.mem_singleton.mp h]
      exact .function (by simp [hkind]) hname hscope
    · cases h
  case arrowFunction | catchClause =>
    split at h
    · rename_i parameter hparameter
      have hshape : declaredShape d source p = .unknown := by simp only [declaredShape, hkind]
      exact .pattern (.ownParameter (by simp [hkind]) hparameter) (hshape ▸ h)
    · cases h
  case publicFieldDefinition | fieldDefinition =>
    split at h
    · rename_i name body hname hbody
      rw [List.mem_singleton.mp h, ← declaredShape_of_variable (by simp [hkind])]
      exact .field (.definition (by simp [hkind]) hname hbody)
    · cases h
  all_goals cases h

theorem mem_bindingsAt_iff : b ∈ bindingsAt d source p ↔ Declares d source p b :=
  ⟨declares_of_mem_bindingsAt, Declares.mem_bindingsAt⟩

theorem bindingShape_of_no_value (htype : p.child? .type = none)
    (hvalue : p.child? .value = none) : bindingShape d source p = .unknown := by
  simp only [bindingShape, htype, hvalue]

theorem declaredShape_congr
    (h : ∀ v, p.child? .value = some v → exprShape d source v = exprShape e source v) :
    declaredShape d source p = declaredShape e source p := by
  have hbinding : bindingShape d source p = bindingShape e source p := by
    unfold bindingShape
    split
    · rfl
    · exact h _ ‹_›
    · rfl
  rw [declaredShape, declaredShape, hbinding]

/-- A declaration gives its names the shape of its type or value, or nothing is known about
them. -/
theorem shape_of_declaration (hkind : p.kind = .variableDeclarator ∨
      p.kind = .publicFieldDefinition ∨ p.kind = .fieldDefinition)
    (h : b ∈ bindingsAt d source p) :
    b.shape = bindingShape d source p ∨ b.shape = .unknown := by
  rw [← declaredShape_of_variable hkind]
  cases mem_bindingsAt_iff.mp h with
  | pattern _ hb => exact shape_of_mem_bindPattern hb
  | field => exact Or.inl rfl
  | function hfunction => rcases hfunction with h | h <;> simp [h] at hkind
  | imported => exact Or.inr rfl

end Reading

end Oracle

end ObserverLint
