import ObserverLint.Proofs.Bindings
import ObserverLint.Proofs.CursorWalk
import ObserverLint.Proofs.Resolution

namespace ObserverLint.Oracle

open Place
open SourceFile (placeAt_mem)

theorem scope_of_mem_parameterNames {source : String} {p : Place} {b : Binding}
    (h : b ∈ parameterNames source p) :
    ∃ scope, p.declaringScope? true = some scope ∧ b.scope = scope.address := by
  obtain ⟨pattern, scope, -, hscope, hb⟩ := mem_parameterNames h
  exact ⟨scope, hscope, scope_of_mem_bindPattern hb⟩

structure ParameterOf (file : SourceFile) (owner p : Place) : Prop where
  inFile : p ∈ file.root.preorder
  isParameter : IsParameter p
  inList : ∃ list, p.parent? = some list ∧ list.kind = .formalParameters ∧
    list.parent? = some owner

namespace ParameterOf

variable {file : SourceFile} {owner p : Place}

theorem ancestors_eq (h : ParameterOf file owner p) :
    ∃ list, list.kind = .formalParameters ∧ Within file.root owner ∧
      p.ancestors = list :: owner.selfAndAncestors := by
  obtain ⟨list, hlist, hkind, howner⟩ := h.inList
  obtain ⟨hl, hpl⟩ := parent?_eq_some (mem_preorder.mp h.inFile) hlist
  obtain ⟨ho, hlo⟩ := parent?_eq_some hl howner
  exact ⟨list, hkind, ho, by rw [ancestors_child hpl, ancestors_child hlo, selfAndAncestors]⟩

theorem owner_within (h : ParameterOf file owner p) : Within file.root owner := by
  obtain ⟨-, -, ho, -⟩ := h.ancestors_eq
  exact ho

theorem selfAndAncestors_owner_subset (h : ParameterOf file owner p) :
    owner.selfAndAncestors ⊆ p.ancestors := by
  obtain ⟨list, -, -, heq⟩ := h.ancestors_eq
  rw [heq]
  exact List.subset_cons_self _ _

/-- The names of a parameter go to the nearest function at or above the owner of the list. -/
theorem names_scope (h : ParameterOf file owner p) {b : Binding}
    (hb : b ∈ parameterNames file.text p) :
    ∃ scope, owner.selfAndAncestors.find? (fun a => a.kind.isFunctionScope) = some scope ∧
      b.scope = scope.address := by
  obtain ⟨scope, hscope, heq⟩ := scope_of_mem_parameterNames hb
  obtain ⟨list, hkind, -, hancestors⟩ := h.ancestors_eq
  refine ⟨scope, ?_, heq⟩
  rw [declaringScope?, hancestors, List.find?_cons_of_neg (by simp [hkind, Kind.isFunctionScope])]
    at hscope
  simpa using hscope

/-- The names stay within the owner exactly if the owner is a function. -/
theorem names_stay_iff (h : ParameterOf file owner p) {b : Binding}
    (hb : b ∈ parameterNames file.text p) :
    (∃ s, Within owner s ∧ b.scope = s.address) ↔ owner.kind.isFunctionScope = true := by
  obtain ⟨scope, hfind, hscope⟩ := h.names_scope hb
  cases hfunction : owner.kind.isFunctionScope with
  | true =>
    rw [selfAndAncestors, List.find?_cons_of_pos (by exact hfunction)] at hfind
    obtain rfl := Option.some.inj hfind
    exact ⟨fun _ => rfl, fun _ => ⟨owner, .refl, hscope⟩⟩
  | false =>
    -- The scope is above the owner, so its address is too short to lie within.
    rw [selfAndAncestors, List.find?_cons_of_neg (by simp [hfunction])] at hfind
    have hmem := List.mem_of_find?_eq_some hfind
    have hlt := length_address_lt_of_mem_ancestors h.owner_within hmem
    constructor
    · rintro ⟨s, hs, heq⟩
      have hle := (address_suffix_of_within hs).length_le
      rw [← heq, hscope] at hle
      omega
    · intro hfalse
      cases hfalse

end ParameterOf

structure AgreeOutside (owner : Place) (d e : Declarations) : Prop where
  classes : d.classes = e.classes
  bindings : d.bindings.filter (fun b => !owner.address.isSuffixOf b.scope) =
    e.bindings.filter (fun b => !owner.address.isSuffixOf b.scope)

namespace AgreeOutside

variable {owner : Place} {d e : Declarations}

theorem refl (owner : Place) (d : Declarations) : AgreeOutside owner d d := ⟨rfl, rfl⟩

theorem addBindings (h : AgreeOutside owner d e) (bs : List Binding) :
    AgreeOutside owner (d.addBindings bs) (e.addBindings bs) where
  classes := h.classes
  bindings := by simp only [Declarations.addBindings, List.filter_append, h.bindings]

theorem addInside (h : AgreeOutside owner d e) {bs cs : List Binding}
    (hbs : ∀ b ∈ bs, owner.address <:+ b.scope) (hcs : ∀ b ∈ cs, owner.address <:+ b.scope) :
    AgreeOutside owner (d.addBindings bs) (e.addBindings cs) where
  classes := h.classes
  bindings := by
    have hnil {xs : List Binding} (hxs : ∀ b ∈ xs, owner.address <:+ b.scope) :
        xs.filter (fun b => !owner.address.isSuffixOf b.scope) = [] := by
      rw [List.filter_eq_nil_iff]
      intro b hb
      simpa using hxs b hb
    simp only [Declarations.addBindings, List.filter_append, h.bindings, hnil hbs, hnil hcs]

theorem shapeIn?_eq (h : AgreeOutside owner d e) {scope : Address} (name : String)
    (hscope : ¬ owner.address <:+ scope) : d.shapeIn? scope name = e.shapeIn? scope name := by
  have houtside (bs : List Binding) :
      bs.filter (fun b => b.scope == scope && b.name == name) =
        (bs.filter (fun b => !owner.address.isSuffixOf b.scope)).filter
          (fun b => b.scope == scope && b.name == name) := by
    rw [List.filter_filter]
    apply List.filter_congr
    intro b _
    by_cases hb : b.scope = scope
    · have hnot : owner.address.isSuffixOf scope = false := by
        rw [← Bool.not_eq_true, List.isSuffixOf_iff_suffix]
        exact hscope
      simp [hb, hnot]
    · simp [hb]
  rw [Declarations.shapeIn?, Declarations.shapeIn?, houtside, h.bindings, ← houtside]

theorem resolve?_eq (h : AgreeOutside owner d e) {t : Node} {u : Place} (name : String)
    (hu : Within (root t) u) (houtside : ¬ owner.address <:+ u.address) :
    d.resolve? u name = e.resolve? u name := by
  have hstep : ∀ q ∈ u.selfAndAncestors,
      (d.shapeIn? q.address name).map (fun shape => (q.address, shape)) =
        (e.shapeIn? q.address name).map (fun shape => (q.address, shape)) := by
    intro q hq
    have hsuffix := address_suffix_of_within (within_of_mem_selfAndAncestors hu hq).2
    rw [h.shapeIn?_eq name fun hinside => houtside (hinside.trans hsuffix)]
  rw [Declarations.resolve?, Declarations.resolve?]
  generalize u.selfAndAncestors = places at hstep
  induction places with
  | nil => rfl
  | cons q qs ih =>
    rw [List.findSome?_cons, List.findSome?_cons, hstep q List.mem_cons_self,
      ih fun r hr => hstep r (List.mem_cons_of_mem _ hr)]

/-- Neither does the shape of an expression outside tell them apart. The node itself may be such an
expression: a function shows its shape without being looked into. -/
theorem exprShape_eq (h : AgreeOutside owner d e) (hfunction : owner.kind.isFunctionScope = true)
    {t : Node} {source : String} {v : Place} (howner : Within (root t) owner)
    (hv : Within (root t) v) (houtside : owner.address <:+ v.address → v = owner) :
    exprShape d source v = exprShape e source v := by
  obtain ⟨hlookup, hwrapper⟩ := Kind.not_isLookup_of_isFunctionScope hfunction
  refine exprShape_congr
    (fun q => Within (root t) q ∧ (owner.address <:+ q.address → q = owner)) h.classes ?_ ?_
    ⟨hv, houtside⟩
  · rintro q ⟨hq, hvisible⟩ hkind name
    refine h.resolve?_eq name hq ?_
    intro hinside
    rw [hvisible hinside, hlookup] at hkind
    cases hkind
  · rintro q c ⟨hq, hvisible⟩ hkind hc
    refine ⟨hq.child hc, ?_⟩
    intro hinside
    rcases eq_or_suffix_of_suffix_child howner hq hc hinside with heq | hsuffix
    · exact heq.symm
    · rw [hvisible hsuffix, hwrapper] at hkind
      cases hkind

end AgreeOutside

def FieldsStayIn (file : SourceFile) (owner : Place) : Prop :=
  ∀ q ∈ file.root.preorder, owner ∈ q.ancestors →
    q.kind = .publicFieldDefinition ∨ q.kind = .fieldDefinition →
    ∀ body, q.enclosingClassBody? = some body → Within owner body

theorem FieldsStayIn.of_no_fields {file : SourceFile} {owner : Place}
    (h : ∀ q ∈ file.root.preorder, q.kind ≠ .publicFieldDefinition ∧ q.kind ≠ .fieldDefinition) :
    FieldsStayIn file owner := by
  intro q hq _ hfield
  rcases hfield with hkind | hkind
  · exact absurd hkind (h q hq).1
  · exact absurd hkind (h q hq).2

section Run

variable {file : SourceFile} {owner p q : Place} {d e : Declarations}

/-- What is declared strictly inside a function either stays there or depends on nothing that was
declared before. -/
theorem bindingsAt_inside (hfunction : owner.kind.isFunctionScope = true)
    (hfields : FieldsStayIn file owner) (hq : Within file.root q) (howner : owner ∈ q.ancestors) :
    (∀ d, ∀ b ∈ bindingsAt d file.text q, owner.address <:+ b.scope) ∨
      ∀ d e, bindingsAt d file.text q = bindingsAt e file.text q := by
  by_cases hparameter : IsParameter q
  · right
    intro d e
    rw [bindingsAt_parameter hparameter, bindingsAt_parameter hparameter]
  · left
    intro d b hb
    have hscope {hoisted : Bool} {scope : Place} (h : q.declaringScope? hoisted = some scope) :
        owner.address <:+ scope.address :=
      address_suffix_of_within (within_of_declaringScope? hq howner hfunction h)
    cases mem_bindingsAt_iff.mp hb with
    | pattern hbinds hb =>
      rw [scope_of_mem_bindPattern hb]
      rcases hbinds.scope_eq with rfl | ⟨_, h⟩
      · exact address_suffix_of_within
          (within_of_mem_selfAndAncestors hq (List.mem_cons_of_mem _ howner)).2
      · exact hscope h
    | field hfield =>
      cases hfield with
      | definition hkind _ hbody =>
        exact address_suffix_of_within (hfields q (mem_preorder.mpr hq) howner hkind _ hbody)
      | parameter h => exact absurd h hparameter
    | function _ _ h => exact hscope h
    | imported _ h => exact hscope h

/-- What is declared elsewhere is judged alike by declarations that agree outside the function. -/
theorem bindingsAt_outside (h : AgreeOutside owner d e)
    (hfunction : owner.kind.isFunctionScope = true) (howner : Within file.root owner)
    (hq : Within file.root q) (hnot : owner ∉ q.ancestors) :
    bindingsAt d file.text q = bindingsAt e file.text q := by
  apply bindingsAt_congr
  by_cases heq : q = owner
  · -- The owner is a function, and a function has no initialiser to be judged.
    rw [← heq] at hfunction
    rw [declaredShape_of_function hfunction, declaredShape_of_function hfunction]
  · have houtside : ¬ owner.address <:+ q.address := by
      intro hsuffix
      have hmem := mem_selfAndAncestors_of_within (within_of_address_suffix howner hq hsuffix)
      rcases List.mem_cons.mp hmem with hself | habove
      · exact heq hself.symm
      · exact hnot habove
    apply declaredShape_congr
    intro v hvalue
    have hv : v ∈ q.children := child?_mem hvalue
    refine h.exprShape_eq hfunction howner (hq.child hv) ?_
    intro hinside
    rcases eq_or_suffix_of_suffix_child howner hq hv hinside with hself | hsuffix
    · exact hself.symm
    · exact absurd hsuffix houtside

theorem collectAt_agree (h : AgreeOutside owner d e)
    (hfunction : owner.kind.isFunctionScope = true) (hfields : FieldsStayIn file owner)
    (howner : Within file.root owner) (hq : Within file.root q) :
    AgreeOutside owner (collectAt file.text d q) (collectAt file.text e q) := by
  by_cases hinside : owner ∈ q.ancestors
  · rcases bindingsAt_inside hfunction hfields hq hinside with hstay | hsame
    · exact h.addInside (hstay d) (hstay e)
    · rw [collectAt, collectAt, hsame d e]
      exact h.addBindings _
  · rw [collectAt, collectAt, bindingsAt_outside h hfunction howner hq hinside]
    exact h.addBindings _

/-- Reading a place of the file while passing over the names of the parameter `p`. -/
def collectWithout (source : String) (p : Place) (d : Declarations) (q : Place) : Declarations :=
  if q.address = p.address then d.addBindings (parameterField source q)
  else collectAt source d q

def declarationsWithout (file : SourceFile) (p : Place) : Declarations :=
  file.places.foldl (collectWithout file.text p) (classDeclarations file.text file.places)

theorem collectWithout_agree (h : AgreeOutside owner d e)
    (hfunction : owner.kind.isFunctionScope = true) (hfields : FieldsStayIn file owner)
    (hp : Within file.root p) (hparameter : IsParameter p) (howner : owner ∈ p.ancestors)
    (hq : Within file.root q) :
    AgreeOutside owner (collectAt file.text d q) (collectWithout file.text p e q) := by
  have hin : Within file.root owner := within_of_mem_ancestors hp howner
  rw [collectWithout]
  split
  · rename_i haddress
    obtain rfl := eq_of_address_eq hq hp haddress
    have hnames : ∀ b ∈ parameterNames file.text q, owner.address <:+ b.scope := by
      intro b hb
      obtain ⟨scope, hscope, heq⟩ := scope_of_mem_parameterNames hb
      rw [heq]
      exact address_suffix_of_within (within_of_declaringScope? hq howner hfunction hscope)
    -- Both sides add the field; only one adds the names, and those lie inside.
    have hsplit := (h.addBindings (parameterField file.text q)).addInside hnames
      (List.forall_mem_nil _)
    simpa [collectAt, bindingsAt_parameter hparameter, Declarations.addBindings] using hsplit
  · exact collectAt_agree h hfunction hfields hin hq

theorem declarations_agree (hfunction : owner.kind.isFunctionScope = true)
    (hfields : FieldsStayIn file owner) (hp : Within file.root p) (hparameter : IsParameter p)
    (howner : owner ∈ p.ancestors) :
    AgreeOutside owner (declarations file) (declarationsWithout file p) := by
  have hrun (places : List Place) (hplaces : ∀ q ∈ places, Within file.root q)
      (d e : Declarations) (h : AgreeOutside owner d e) :
      AgreeOutside owner (places.foldl (collectAt file.text) d)
        (places.foldl (collectWithout file.text p) e) := by
    induction places generalizing d e with
    | nil => exact h
    | cons q qs ih =>
      obtain ⟨hq, hqs⟩ := List.forall_mem_cons.mp hplaces
      exact ih hqs _ _ (collectWithout_agree h hfunction hfields hp hparameter howner hq)
  exact hrun file.places (fun _ => SourceFile.mem_places.mp) _ _ (.refl owner _)

/-- A parameter that binds no name is not missed. -/
theorem declarationsWithout_of_names_eq_nil (hp : Within file.root p) (hparameter : IsParameter p)
    (hnames : parameterNames file.text p = []) : declarationsWithout file p = declarations file := by
  have hstep (d : Declarations) (q : Place) (hq : q ∈ file.places) :
      collectWithout file.text p d q = collectAt file.text d q := by
    rw [collectWithout]
    split
    · rename_i haddress
      obtain rfl := eq_of_address_eq (SourceFile.mem_places.mp hq) hp haddress
      rw [collectAt, bindingsAt_parameter hparameter, hnames, List.append_nil]
    · rfl
  exact List.foldl_ext _ _ _ hstep

/-- The answers at places outside a function do not depend on the parameters inside it. -/
theorem answer_unchanged_outside (hfunction : owner.kind.isFunctionScope = true)
    (hfields : FieldsStayIn file owner) (hp : Within file.root p) (hparameter : IsParameter p)
    (howner : owner ∈ p.ancestors) {u : Place} (hu : Within file.root u)
    (houtside : owner ∉ u.selfAndAncestors) (aspect : Aspect) :
    (TypeOracle.ofFile file).couldBe aspect u =
      (TypeOracle.ofDeclarations (declarationsWithout file p) file.text).couldBe aspect u := by
  have hin : Within file.root owner := within_of_mem_ancestors hp howner
  have hagree := declarations_agree hfunction hfields hp hparameter howner
  have hshape : exprShape (declarations file) file.text u =
      exprShape (declarationsWithout file p) file.text u := by
    refine hagree.exprShape_eq hfunction hin hu ?_
    intro hsuffix
    have hwithin := within_of_address_suffix hin hu hsuffix
    exact absurd (mem_selfAndAncestors_of_within hwithin) houtside
  rw [TypeOracle.ofFile, TypeOracle.couldBe_ofDeclarations, TypeOracle.couldBe_ofDeclarations,
    hshape]

end Run

/-- A parameter stays in its owner: it binds its names there, and no answer elsewhere depends on
them. -/
structure StaysIn (file : SourceFile) (owner p : Place) : Prop where
  names : ∀ b ∈ parameterNames file.text p, ∃ s, Within owner s ∧ b.scope = s.address
  answers : ∀ u ∈ file.root.preorder, owner ∉ u.selfAndAncestors → ∀ aspect,
    (TypeOracle.ofFile file).couldBe aspect u =
      (TypeOracle.ofDeclarations (declarationsWithout file p) file.text).couldBe aspect u

theorem ParameterOf.all_names_stay_iff {file : SourceFile} {owner p : Place}
    (h : ParameterOf file owner p) :
    (∀ b ∈ parameterNames file.text p, ∃ s, Within owner s ∧ b.scope = s.address) ↔
      owner.kind.isFunctionScope = true ∨ parameterNames file.text p = [] := by
  constructor
  · intro hstay
    cases hnames : parameterNames file.text p with
    | nil => exact Or.inr rfl
    | cons b bs =>
      have hb : b ∈ parameterNames file.text p := by
        rw [hnames]
        exact List.mem_cons_self
      exact Or.inl ((h.names_stay_iff hb).mp (hstay b hb))
  · rintro (hfunction | hnames)
    · intro b hb
      exact (h.names_stay_iff hb).mpr hfunction
    · rw [hnames]
      exact List.forall_mem_nil _

/-- Every function around a parameter holds it in. -/
theorem ParameterOf.staysIn_function {file : SourceFile} {owner p f : Place}
    (h : ParameterOf file owner p) (hf : f ∈ owner.selfAndAncestors)
    (hfunction : f.kind.isFunctionScope = true) (hfields : FieldsStayIn file f) :
    StaysIn file f p := by
  have hp : Within file.root p := mem_preorder.mp h.inFile
  have habove : f ∈ p.ancestors := h.selfAndAncestors_owner_subset hf
  constructor
  · intro b hb
    obtain ⟨scope, hscope, heq⟩ := scope_of_mem_parameterNames hb
    exact ⟨scope, within_of_declaringScope? hp habove hfunction hscope, heq⟩
  · intro u hu houtside aspect
    exact answer_unchanged_outside hfunction hfields hp h.isParameter habove (mem_preorder.mp hu)
      houtside aspect

/-- A parameter stays in the owner of its list exactly if the owner is a function or the parameter
binds no name. Whatever the owner is, every function around it holds the parameter in. -/
theorem parameter_stays_in_owner_iff_function {file : SourceFile} {owner p : Place}
    (h : ParameterOf file owner p) :
    (∀ d, bindingsAt d file.text p = parameterField file.text p ++ parameterNames file.text p) ∧
    (∀ b ∈ parameterField file.text p, ∃ pattern body, isParameterProperty p = true ∧
      p.child? .pattern = some pattern ∧ p.enclosingClassBody? = some body ∧
      b.IsAt body (fieldKey (pattern.text file.text))) ∧
    ((∀ b ∈ parameterNames file.text p, ∃ s, Within owner s ∧ b.scope = s.address) ↔
      owner.kind.isFunctionScope = true ∨ parameterNames file.text p = []) ∧
    (FieldsStayIn file owner →
      (StaysIn file owner p ↔
        owner.kind.isFunctionScope = true ∨ parameterNames file.text p = [])) ∧
    ∀ f ∈ owner.selfAndAncestors, f.kind.isFunctionScope = true → FieldsStayIn file f →
      StaysIn file f p := by
  have hp : Within file.root p := mem_preorder.mp h.inFile
  refine ⟨fun _ => bindingsAt_parameter h.isParameter, ?_, h.all_names_stay_iff, ?_,
    fun _ => h.staysIn_function⟩
  · intro b hb
    obtain ⟨body, f, hfield, rfl⟩ := mem_parameterField h.isParameter hb
    cases hfield with
    | definition hkind => rcases h.isParameter with h | h <;> simp [h] at hkind
    | parameter _ hproperty hpattern _ _ hbody =>
      exact ⟨_, body, hproperty, hpattern, hbody, rfl, rfl⟩
  · intro hfields
    constructor
    · intro hstays
      exact h.all_names_stay_iff.mp hstays.names
    · rintro (hfunction | hnames)
      · exact h.staysIn_function List.mem_cons_self hfunction hfields
      · refine ⟨h.all_names_stay_iff.mpr (Or.inr hnames), ?_⟩
        intro u _ _ aspect
        rw [declarationsWithout_of_names_eq_nil hp h.isParameter hnames, TypeOracle.ofFile]

def typedList : Node :=
  .mk { kind := .formalParameters, field := some (.other "parameters"), start := 10,
        stop := 21 } [
    .mk { kind := .other "(", named := false, start := 10, stop := 11 } [],
    .mk { kind := .requiredParameter, start := 11, stop := 20 } [
      .mk { kind := .identifier, field := some .pattern, start := 11, stop := 12 } [],
      .mk { kind := .annotatedType, field := some .type, start := 12, stop := 20 } [
        .mk { kind := .other ":", named := false, start := 12, stop := 13 } [],
        .mk { kind := .predefinedType, start := 14, stop := 20 } [
          .mk { kind := .stringLiteral, named := false, start := 14, stop := 20 } []]]],
    .mk { kind := .other ")", named := false, start := 20, stop := 21 } []]

/-- A function with a parameter of a plain type, and a subscription after it. In this file and in
the next the owner of the list is place number 1, the list number 4, the parameter number 6. -/
def definition : SourceFile where
  path := ⟨"test.ts"⟩
  dialect := .typeScript
  text := "function o(s: string) \x7b\x7d\ns.subscribe(a, b);\n"
  tree := .mk { kind := .program, stop := 44 } [
    .mk { kind := .functionDeclaration, stop := 24 } [
      .mk { kind := .function, named := false, stop := 8 } [],
      .mk { kind := .identifier, field := some .name, start := 9, stop := 10 } [],
      typedList,
      .mk { kind := .statementBlock, field := some (.other "body"), start := 22, stop := 24 } [
        .mk { kind := .other "\x7b", named := false, start := 22, stop := 23 } [],
        .mk { kind := .other "\x7d", named := false, start := 23, stop := 24 } []]],
    subscription 25]

def signature : SourceFile where
  path := ⟨"test.ts"⟩
  dialect := .typeScript
  text := "function o(s: string): void;\ns.subscribe(a, b);\n"
  tree := .mk { kind := .program, stop := 48 } [
    .mk { kind := .other "function_signature", stop := 28 } [
      .mk { kind := .function, named := false, stop := 8 } [],
      .mk { kind := .identifier, field := some .name, start := 9, stop := 10 } [],
      typedList,
      .mk { kind := .annotatedType, field := some (.other "return_type"), start := 21,
            stop := 27 } [
        .mk { kind := .other ":", named := false, start := 21, stop := 22 } [],
        .mk { kind := .predefinedType, start := 23, stop := 27 } [
          .mk { kind := .other "void", named := false, start := 23, stop := 27 } []]],
      .mk { kind := .other ";", named := false, start := 27, stop := 28 } []],
    subscription 29]

theorem not_mem_selfAndAncestors_of_address {a u : Place}
    (h : a.address ∉ u.selfAndAncestors.map address) : a ∉ u.selfAndAncestors := by
  intro hmem
  exact h (List.mem_map_of_mem hmem)

theorem definition_parameter_stays :
    ParameterOf definition (definition.placeAt 1) (definition.placeAt 6) ∧
      FieldsStayIn definition (definition.placeAt 1) ∧
      parameterNames definition.text (definition.placeAt 6) = [⟨[0], "s", .plain⟩] ∧
      StaysIn definition (definition.placeAt 1) (definition.placeAt 6) := by
  have hparameter : ParameterOf definition (definition.placeAt 1) (definition.placeAt 6) :=
    ⟨placeAt_mem (by decide), Or.inl (by decide), definition.placeAt 4, rfl, by decide, rfl⟩
  have hfields : FieldsStayIn definition (definition.placeAt 1) := .of_no_fields (by decide)
  exact ⟨hparameter, hfields, by decide,
    ((parameter_stays_in_owner_iff_function hparameter).2.2.2.1 hfields).mpr
      (Or.inl (by decide))⟩

/-- The parameter of a signature makes a subscription outside the signature pass for plain. -/
theorem signature_parameter_escapes :
    ParameterOf signature (signature.placeAt 1) (signature.placeAt 6) ∧
      FieldsStayIn signature (signature.placeAt 1) ∧
      signature.placeAt 21 ∈ signature.root.preorder ∧
      signature.placeAt 1 ∉ (signature.placeAt 21).selfAndAncestors ∧
      (TypeOracle.ofFile signature).couldBeObservable (signature.placeAt 21) = false ∧
      (TypeOracle.ofDeclarations (declarationsWithout signature (signature.placeAt 6))
        signature.text).couldBeObservable (signature.placeAt 21) = true ∧
      ¬ StaysIn signature (signature.placeAt 1) (signature.placeAt 6) := by
  have houtside : signature.placeAt 1 ∉ (signature.placeAt 21).selfAndAncestors :=
    not_mem_selfAndAncestors_of_address (by decide)
  have hwith : (TypeOracle.ofFile signature).couldBeObservable (signature.placeAt 21) = false := by
    decide
  have hwithout : (TypeOracle.ofDeclarations (declarationsWithout signature (signature.placeAt 6))
      signature.text).couldBeObservable (signature.placeAt 21) = true := by
    decide
  refine ⟨⟨placeAt_mem (by decide), Or.inl (by decide), signature.placeAt 4, rfl, by decide, rfl⟩,
    .of_no_fields (by decide), placeAt_mem (by decide), houtside, hwith, hwithout, ?_⟩
  intro hstays
  have hsame := hstays.answers _ (placeAt_mem (by decide)) houtside .observable
  exact Bool.noConfusion ((hwith.symm.trans hsame).trans hwithout)

end ObserverLint.Oracle
