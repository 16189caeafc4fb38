import ObserverLint.Proofs.LocalClasses

namespace ObserverLint

def Kind.isNamedDeclaration : Kind → Bool
  | classDeclaration | abstractClassDeclaration | functionDeclaration
  | generatorFunctionDeclaration | importSpecifier => true
  | _ => false

namespace Place

/-- The node can give its text to something as a name: an identifier, or what a declaration has for
its name. -/
def givesName (p : Place) : Bool :=
  p.kind == .identifier || p.kind == .shorthandPattern ||
    ((p.node.field == some .name || p.node.field == some .alias) &&
      p.parent?.any fun q => q.kind.isNamedDeclaration)

def classBodies (p : Place) : List Place := p.ancestors.filter fun a => a.kind == .classBody

theorem lineage_split {address : Address} {above : List Node} {nearer outer : List Place}
    {a : Place} (h : lineage address above = nearer ++ a :: outer) : outer = a.ancestors := by
  induction nearer generalizing address above with
  | nil =>
    unfold lineage at h
    split at h
    · obtain ⟨rfl, rfl⟩ := List.cons.inj h
      rfl
    · cases h
  | cons b nearer ih =>
    unfold lineage at h
    split at h
    · exact ih (List.cons.inj h).2
    · cases h

theorem classBodies_of_enclosingClassBody? {u body : Place}
    (h : u.enclosingClassBody? = some body) : u.classBodies = body :: body.classBodies := by
  obtain ⟨hkind, nearer, outer, hsplit, hnearer⟩ := List.find?_eq_some_iff_append.mp h
  have hnone : nearer.filter (fun a => a.kind == .classBody) = [] := by
    rw [List.filter_eq_nil_iff]
    intro a ha
    simpa using hnearer a ha
  rw [classBodies, hsplit, List.filter_append, hnone, List.nil_append,
    List.filter_cons_of_pos (by exact hkind), lineage_split hsplit, classBodies]

theorem within_of_enclosingClassBody? {t : Node} {q body : Place} (hq : Within (root t) q)
    (h : q.enclosingClassBody? = some body) : Within (root t) body :=
  within_of_mem_ancestors hq (List.mem_of_find?_eq_some h)

theorem kind_of_enclosingClassBody? {q body : Place} (h : q.enclosingClassBody? = some body) :
    body.kind = .classBody := by
  simpa using List.find?_some h

end Place

namespace Oracle

open Place
open SourceFile (placeAt_mem)

def GivenIn (t : Node) (source name : String) : Prop :=
  ∃ p, Within (root t) p ∧ p.givesName = true ∧ p.text source = name

section Names

variable {t : Node} {source : String} {d : Declarations} {q : Place} {b : Binding}

theorem givenIn_of_mem_patternNames {p : Place} (hp : Within (root t) p) {name : String}
    {shape part : Shape} (h : (name, part) ∈ patternNames source shape p.node) :
    GivenIn t source name := by
  induction p using Place.induction_children generalizing shape with
  | step p ih =>
    by_cases hname : IsName p.node
    · rw [patternNames_of_isName hname] at h
      obtain ⟨rfl, -⟩ := Prod.mk.inj (List.mem_singleton.mp h)
      have hkind : p.kind = .identifier ∨ p.kind = .shorthandPattern := hname
      exact ⟨p, hp, by rcases hkind with hkind | hkind <;> simp [givesName, hkind], rfl⟩
    · rw [patternNames_of_not_isName hname, partNames_eq_flatMap] at h
      obtain ⟨n, hn, hpart⟩ := List.mem_flatMap.mp h
      obtain ⟨k, hk⟩ := List.getElem?_of_mem (List.mem_filter.mp hn).1
      have hchild : ⟨k :: p.address, n, p.node :: p.above⟩ ∈ p.children :=
        mem_children.mpr ⟨k, n, hk, rfl⟩
      exact ih _ hchild (hp.child hchild) hpart

theorem givenIn_of_mem_bindPattern {scope pattern : Place} {shape : Shape}
    (hpattern : Within (root t) pattern) (h : b ∈ bindPattern source scope pattern shape) :
    GivenIn t source b.name := by
  obtain ⟨⟨name, part⟩, hpart, rfl⟩ := List.mem_map.mp h
  exact givenIn_of_mem_patternNames hpattern hpart

theorem givenIn_of_child? {c : Place} {f : Field} (hq : Within (root t) q)
    (hkind : q.kind.isNamedDeclaration = true) (hf : f = .name ∨ f = .alias)
    (h : q.child? f = some c) : GivenIn t source (c.text source) := by
  have hc := child?_mem h
  have hfield : c.node.field = some f := by simpa using List.find?_some h
  refine ⟨c, hq.child hc, ?_, rfl⟩
  rcases hf with rfl | rfl <;> simp [givesName, hfield, parent?_child hc, hkind]

theorem DeclaresClass.givenIn {scope : Place} {name : String} (hq : Within (root t) q)
    (h : DeclaresClass source q scope name) : GivenIn t source name := by
  obtain ⟨hkind, ⟨n, hname, rfl⟩, -⟩ := h
  have hnamed : q.kind.isNamedDeclaration = true := by rcases hkind with h | h <;> rw [h] <;> rfl
  exact givenIn_of_child? hq hnamed (Or.inl rfl) hname

theorem BindsPattern.givenIn {scope pattern : Place} {shape : Shape} (hq : Within (root t) q)
    (hbinds : BindsPattern source q scope pattern)
    (h : b ∈ bindPattern source scope pattern shape) : GivenIn t source b.name := by
  refine givenIn_of_mem_bindPattern ?_ h
  cases hbinds with
  | declarator _ _ hpattern | loopVariable _ _ _ hpattern | risingLoopVariable _ _ _ _ hpattern
  | ownParameter _ hpattern | parameter _ _ hpattern => exact hq.child (child?_mem hpattern)
  | bareParameter _ _ hparameter hbare =>
    have hin := hq.child (List.mem_filter.mp hparameter).1
    cases hbare with
    | pattern => exact hin
    | default _ hleft => exact hin.child (child?_mem hleft)

theorem Imports.givenIn {name : Place} (hq : Within (root t) q) (h : Imports q name) :
    GivenIn t source (name.text source) := by
  cases h with
  | renamed hkind halias => exact givenIn_of_child? hq (by rw [hkind]; rfl) (Or.inr rfl) halias
  | named hkind _ hname => exact givenIn_of_child? hq (by rw [hkind]; rfl) (Or.inl rfl) hname
  | whole _ hname hidentifier =>
    exact ⟨name, hq.child (List.mem_filter.mp hname).1, by simp [givesName, hidentifier], rfl⟩

end Names

def HasField (file : SourceFile) (body : Place) (f : String) : Prop :=
  ∃ q ∈ file.root.preorder, DeclaresField file.text q body f

/-- No node that can give a name is spelled like the use of a field. -/
def PlainNames (file : SourceFile) : Prop :=
  ∀ p ∈ file.root.preorder, p.givesName = true → ∀ f, p.text file.text ≠ fieldKey f

theorem fieldKey_injective {f g : String} (h : fieldKey f = fieldKey g) : f = g :=
  (String.append_right_inj _).mp h

theorem PlainNames.of_isPrefixOf_eq_false {file : SourceFile}
    (h : ∀ p ∈ file.root.preorder, p.givesName = true →
      "this.".toList.isPrefixOf (p.text file.text).toList = false) : PlainNames file := by
  intro p hp hname f htext
  have hnone := h p hp hname
  rw [← Bool.not_eq_true, List.isPrefixOf_iff_prefix, htext, fieldKey,
    String.toList_append] at hnone
  exact hnone (List.prefix_append _ _)

section Fields

variable {source : String} {d : Declarations} {q body : Place} {b : Binding} {f : String}

theorem DeclaresField.enclosing (h : DeclaresField source q body f) :
    q.enclosingClassBody? = some body := by
  cases h with
  | definition _ _ hbody => exact hbody
  | parameter _ _ _ _ _ hbody => exact hbody

/-- What a place declares is a field, or some node gives it its name. -/
theorem Declares.exists_declaresField_or_givenIn {t : Node} (hq : Within (root t) q)
    (h : Declares d source q b) :
    (∃ body f, DeclaresField source q body f ∧ b.IsAt body (fieldKey f)) ∨
      GivenIn t source b.name := by
  cases h with
  | pattern hbinds hb => exact Or.inr (hbinds.givenIn hq hb)
  | @field body f hfield => exact Or.inl ⟨body, f, hfield, rfl, rfl⟩
  | function hkind hname _ =>
    have hnamed : q.kind.isNamedDeclaration = true := by rcases hkind with h | h <;> rw [h] <;> rfl
    exact Or.inr (givenIn_of_child? hq hnamed (Or.inl rfl) hname)
  | imported himports _ => exact Or.inr (himports.givenIn hq)

end Fields

section Origins

variable {file : SourceFile} {u body : Place} {f : String}

theorem PlainNames.not_givenIn (hnames : PlainNames file) :
    ¬ GivenIn file.tree file.text (fieldKey f) := by
  rintro ⟨p, hp, hname, htext⟩
  exact hnames p (mem_preorder.mpr hp) hname f htext

/-- Only the declarations of a field are found under its key, each in its own class. -/
theorem PlainNames.exists_declaresField (hnames : PlainNames file) {b : Binding}
    (hb : b ∈ contributions file) (hkey : b.name = fieldKey f) :
    ∃ q ∈ file.root.preorder, ∃ body, DeclaresField file.text q body f ∧ b.scope = body.address ∧
      ∃ d, b ∈ bindingsAt d file.text q := by
  rw [contributions_eq_classes_append, List.mem_append] at hb
  rcases hb with hb | hb
  · obtain ⟨q, hq, scope, hdeclares, -⟩ := exists_declaresClass_of_mem_bindings hb
    have hgiven := hdeclares.givenIn (mem_preorder.mp hq)
    rw [hkey] at hgiven
    exact absurd hgiven hnames.not_givenIn
  · obtain ⟨q, hq, d, hd⟩ := exists_of_mem_contributionsFrom hb
    have hwithin := SourceFile.mem_places.mp hq
    rcases (mem_bindingsAt_iff.mp hd).exists_declaresField_or_givenIn hwithin with
      ⟨body, g, hfield, hat⟩ | hgiven
    · obtain rfl := fieldKey_injective (hat.2.symm.trans hkey)
      exact ⟨q, mem_preorder.mpr hwithin, body, hfield, hat.1, d, hd⟩
    · rw [hkey] at hgiven
      exact absurd hgiven hnames.not_givenIn

theorem PlainNames.exists_declaresField_at (hnames : PlainNames file)
    (hbody : Within file.root body) {b : Binding} (hb : b ∈ contributions file)
    (hat : b.IsAt body (fieldKey f)) :
    ∃ q ∈ file.root.preorder, DeclaresField file.text q body f ∧
      ∃ d, b ∈ bindingsAt d file.text q := by
  obtain ⟨q, hq, other, hfield, hscope, hd⟩ := hnames.exists_declaresField hb hat.2
  have hother := within_of_enclosingClassBody? (mem_preorder.mp hq) hfield.enclosing
  obtain rfl := eq_of_address_eq hbody hother (hat.1.symm.trans hscope)
  exact ⟨q, hq, hfield, hd⟩

theorem PlainNames.hasField_iff (hnames : PlainNames file) (hbody : Within file.root body) :
    HasField file body f ↔ ∃ b ∈ contributions file, b.IsAt body (fieldKey f) := by
  constructor
  · rintro ⟨q, hq, hfield⟩
    have hplace := SourceFile.mem_places.mpr (mem_preorder.mp hq)
    obtain ⟨d, hd⟩ := bindingsAt_subset_contributions hplace
    exact ⟨_, hd (mem_bindingsAt_iff.mpr (.field hfield)), rfl, rfl⟩
  · rintro ⟨b, hb, hat⟩
    obtain ⟨q, hq, hfield, -⟩ := hnames.exists_declaresField_at hbody hb hat
    exact ⟨q, hq, hfield⟩

theorem HasField.isClassBody (h : HasField file body f) : body.kind = .classBody := by
  obtain ⟨q, -, hfield⟩ := h
  exact kind_of_enclosingClassBody? hfield.enclosing

end Origins

structure ThisMember (source : String) (u : Place) (f : String) : Prop where
  kind : u.kind = .memberExpression
  object : ∃ object, u.child? .object = some object ∧ object.kind = .thisExpression
  property : ∃ property, u.child? .property = some property ∧ property.text source = f

theorem ThisMember.refers {source : String} {u : Place} {f : String}
    (h : ThisMember source u f) : Refers source u (fieldKey f) := by
  obtain ⟨hkind, ⟨object, hobject, hthis⟩, property, hproperty, rfl⟩ := h
  exact .field hkind hobject hthis hproperty

/-- Of the classes around `u`, the one with this body is the nearest that declares the field. -/
def NearestClass (file : SourceFile) (u : Place) (f : String) (body : Place) : Prop :=
  ∃ nearer outer, u.classBodies = nearer ++ body :: outer ∧
    (∀ b ∈ nearer, ¬ HasField file b f) ∧ HasField file body f

section Uses

variable {file : SourceFile} {u body c : Place} {f : String}

/-- What an expression stands for is possible unless the nearest scope that declares the name rules
it out. -/
theorem Refers.couldBe_iff {name : String} (h : Refers file.text u name) (aspect : Aspect) :
    (TypeOracle.ofFile file).couldBe aspect u = true ↔
      ∀ scope, NearestScope (contributions file) u name scope →
        DeclaredPossible file aspect scope name := by
  rw [← not_iff_not, Bool.not_eq_true, TypeOracle.ofFile, TypeOracle.couldBe_ofDeclarations,
    Possibility.couldBe_eq_false_iff, h.exprShape_eq, Declarations.lookup_on_eq_no_iff,
    declarations_bindings]
  simp [DeclaredPossible]

/-- Only class bodies hold fields, so the nearest scope with the key of a field is the nearest class
with the field. -/
theorem PlainNames.nearestScope_iff (hnames : PlainNames file) (hu : Within file.root u)
    (hkind : u.kind ≠ .classBody) :
    NearestScope (contributions file) u (fieldKey f) body ↔ NearestClass file u f body := by
  have hbodies : u.classBodies = u.selfAndAncestors.filter fun a => a.kind == .classBody := by
    rw [selfAndAncestors, List.filter_cons_of_neg (by simpa using hkind), classBodies]
  have hfields (q : Place) (hq : q ∈ u.selfAndAncestors) :
      HasField file q f ↔ ∃ b ∈ contributions file, b.IsAt q (fieldKey f) :=
    hnames.hasField_iff (within_of_mem_selfAndAncestors hu hq).1
  constructor
  · rintro ⟨nearer, outer, hsplit, hnearer, hdeclared⟩
    rw [hsplit] at hfields
    have hfield := (hfields body (List.mem_append_right _ List.mem_cons_self)).mpr hdeclared
    refine ⟨nearer.filter fun a => a.kind == .classBody,
      outer.filter fun a => a.kind == .classBody, ?_, ?_, hfield⟩
    · rw [hbodies, hsplit, List.filter_append,
        List.filter_cons_of_pos (by simp [hfield.isClassBody])]
    · intro q hq hnear
      have hq := (List.mem_filter.mp hq).1
      obtain ⟨b, hb, hat⟩ := (hfields q (List.mem_append_left _ hq)).mp hnear
      exact hnearer q hq b hb hat
  · rintro ⟨nearer, outer, hsplit, hnearer, hfield⟩
    rw [hbodies] at hsplit
    -- Between two class bodies there are only scopes that hold no fields.
    obtain ⟨front, back, hwhole, hfront, hback⟩ := List.filter_eq_append_iff.mp hsplit
    obtain ⟨gap, rest, rfl, hgap, -, -⟩ := List.filter_eq_cons_iff.mp hback
    rw [hwhole, ← List.append_assoc] at hfields
    refine ⟨front ++ gap, rest, by rw [hwhole, List.append_assoc], ?_,
      (hfields body (List.mem_append_right _ List.mem_cons_self)).mp hfield⟩
    intro q hq b hb hat
    have hnear := (hfields q (List.mem_append_left _ hq)).mpr ⟨b, hb, hat⟩
    have hclass : (q.kind == .classBody) = true := beq_iff_eq.mpr hnear.isClassBody
    rcases List.mem_append.mp hq with hq | hq
    · refine hnearer q ?_ hnear
      rw [← hfront]
      exact List.mem_filter.mpr ⟨hq, hclass⟩
    · exact hgap q hq hclass

theorem nearestClass_iff (hbody : u.enclosingClassBody? = some body) :
    NearestClass file u f c ↔
      HasField file body f ∧ c = body ∨ ¬ HasField file body f ∧ NearestClass file body f c := by
  rw [NearestClass, classBodies_of_enclosingClassBody? hbody]
  constructor
  · rintro ⟨nearer, outer, hsplit, hnearer, hfield⟩
    cases nearer with
    | nil =>
      obtain ⟨rfl, rfl⟩ := List.cons.inj hsplit
      exact Or.inl ⟨hfield, rfl⟩
    | cons b nearer =>
      obtain ⟨rfl, hrest⟩ := List.cons.inj hsplit
      obtain ⟨hnone, hnearer⟩ := List.forall_mem_cons.mp hnearer
      exact Or.inr ⟨hnone, nearer, outer, hrest, hnearer, hfield⟩
  · rintro (⟨hfield, rfl⟩ | ⟨hnone, nearer, outer, hrest, hnearer, hfield⟩)
    · exact ⟨[], _, rfl, List.forall_mem_nil _, hfield⟩
    · exact ⟨body :: nearer, outer, by rw [hrest, List.cons_append],
        List.forall_mem_cons.mpr ⟨hnone, hnearer⟩, hfield⟩

theorem ThisMember.couldBe_iff (hnames : PlainNames file) (hu : Within file.root u)
    (hthis : ThisMember file.text u f) (aspect : Aspect) :
    (TypeOracle.ofFile file).couldBe aspect u = true ↔
      ∀ c, NearestClass file u f c → DeclaredPossible file aspect c (fieldKey f) := by
  have hkind : u.kind ≠ .classBody := by
    rw [hthis.kind]
    exact Kind.noConfusion
  simp only [hthis.refers.couldBe_iff, hnames.nearestScope_iff hu hkind]

end Uses

/-- A use of `this.f` in a class: where the class declares the field, its own declarations of the
field decide. Where it does not, nothing rules the use out exactly if no class further out declares
the field or the nearest one that does leaves it open. -/
theorem this_field_goes_by_nearest_class_with_it {file : SourceFile} {u body : Place} {f : String}
    (hnames : PlainNames file) (hu : u ∈ file.root.preorder) (hthis : ThisMember file.text u f)
    (hbody : u.enclosingClassBody? = some body) (aspect : Aspect) :
    (∀ b ∈ contributions file, b.IsAt body (fieldKey f) →
      ∃ q ∈ file.root.preorder, DeclaresField file.text q body f ∧
        ∃ d, b ∈ bindingsAt d file.text q) ∧
    (HasField file body f →
      ((TypeOracle.ofFile file).couldBe aspect u = true ↔
        DeclaredPossible file aspect body (fieldKey f))) ∧
    (¬ HasField file body f →
      ((TypeOracle.ofFile file).couldBe aspect u = true ↔
        ∀ outer, NearestClass file body f outer →
          DeclaredPossible file aspect outer (fieldKey f))) := by
  have hwithin := mem_preorder.mp hu
  have hanswer := hthis.couldBe_iff hnames hwithin aspect
  simp only [nearestClass_iff hbody] at hanswer
  refine ⟨?_, ?_, ?_⟩
  · intro b hb hat
    exact hnames.exists_declaresField_at (within_of_enclosingClassBody? hwithin hbody) hb hat
  · intro hfield
    rw [hanswer]
    simp [hfield]
  · intro hnone
    rw [hanswer]
    simp [hnone]

/-- `class C{s={};m(){class D{constructor(private s){this.s}}}}` -/
def ownField : SourceFile where
  path := ⟨"own.ts"⟩
  dialect := .typeScript
  text := "class C\x7bs=\x7b\x7d;m()\x7bclass D\x7bconstructor(private s)\x7bthis.s\x7d\x7d\x7d\x7d"
  tree := .mk { kind := .program, stop := 58 } [
    .mk { kind := .classDeclaration, stop := 58 } [
      .mk { kind := .typeIdentifier, field := some .name, start := 6, stop := 7 } [],
      .mk { kind := .classBody, field := some (.other "body"), start := 7, stop := 58 } [
        .mk { kind := .publicFieldDefinition, start := 8, stop := 12 } [
          .mk { kind := .other "property_identifier", field := some .name, start := 8,
                stop := 9 } [],
          .mk { kind := .objectLiteral, field := some .value, start := 10, stop := 12 } []],
        .mk { kind := .methodDefinition, start := 13, stop := 57 } [
          .mk { kind := .statementBlock, field := some (.other "body"), start := 16,
                stop := 57 } [
            .mk { kind := .classDeclaration, start := 17, stop := 56 } [
              .mk { kind := .typeIdentifier, field := some .name, start := 23, stop := 24 } [],
              .mk { kind := .classBody, field := some (.other "body"), start := 24,
                    stop := 56 } [
                .mk { kind := .methodDefinition, start := 25, stop := 55 } [
                  .mk { kind := .formalParameters, field := some (.other "parameters"),
                        start := 36, stop := 47 } [
                    .mk { kind := .requiredParameter, start := 37, stop := 46 } [
                      .mk { kind := .accessibilityModifier, start := 37, stop := 44 } [],
                      .mk { kind := .identifier, field := some .pattern, start := 45,
                            stop := 46 } []]],
                  .mk { kind := .statementBlock, field := some (.other "body"), start := 47,
                        stop := 55 } [
                    .mk { kind := .memberExpression, start := 48, stop := 54 } [
                      .mk { kind := .thisExpression, field := some .object, start := 48,
                            stop := 52 } [],
                      .mk { kind := .other "property_identifier", field := some .property,
                            start := 53, stop := 54 } []]]]]]]]]]]

theorem contributions_ownField : contributions ownField =
    [⟨[], "C", .ofClass⟩, ⟨[0, 1, 1, 0], "D", .ofClass⟩, ⟨[1, 0], "this.s", .plain⟩,
      ⟨[1, 0, 0, 1, 1, 0], "this.s", .unknown⟩, ⟨[0, 1, 0, 0, 1, 1, 0], "s", .unknown⟩] := by
  decide +kernel

/-- The inner class has a field of its own, so the plain field of the outer class has no say. -/
theorem ownField_use_possible :
    PlainNames ownField ∧ ThisMember ownField.text (ownField.placeAt 18) "s" ∧
      (ownField.placeAt 18).enclosingClassBody? = some (ownField.placeAt 11) ∧
      HasField ownField (ownField.placeAt 11) "s" ∧ HasField ownField (ownField.placeAt 3) "s" ∧
      ¬ DeclaredPossible ownField .observable (ownField.placeAt 3) "this.s" ∧
      (TypeOracle.ofFile ownField).couldBe .observable (ownField.placeAt 18) = true := by
  have hnames : PlainNames ownField := .of_isPrefixOf_eq_false (by decide)
  have hthis : ThisMember ownField.text (ownField.placeAt 18) "s" :=
    ⟨rfl, ⟨ownField.placeAt 19, rfl, rfl⟩, ownField.placeAt 20, rfl, by decide⟩
  have hinner : HasField ownField (ownField.placeAt 11) "s" :=
    ⟨ownField.placeAt 14, placeAt_mem (by decide),
      @DeclaresField.parameter _ _ _ (ownField.placeAt 16) (ownField.placeAt 12) (Or.inl rfl)
        (by decide) rfl rfl rfl rfl⟩
  have houter : HasField ownField (ownField.placeAt 3) "s" :=
    ⟨ownField.placeAt 4, placeAt_mem (by decide),
      @DeclaresField.definition _ _ _ (ownField.placeAt 5) (Or.inl rfl) rfl rfl⟩
  have hplain : ¬ DeclaredPossible ownField .observable (ownField.placeAt 3) "this.s" := by
    rw [DeclaredPossible, contributions_ownField]
    decide
  have hopen : DeclaredPossible ownField .observable (ownField.placeAt 11) "this.s" := by
    rw [DeclaredPossible, contributions_ownField]
    decide
  have hanswer := this_field_goes_by_nearest_class_with_it hnames (placeAt_mem (by decide)) hthis
    rfl .observable
  exact ⟨hnames, hthis, rfl, hinner, houter, hplain, (hanswer.2.1 hinner).mpr hopen⟩

/-- A class with a plain field, and inside it a class without fields that has a method with a
subscription to the field of that name. -/
def borrowedField : SourceFile where
  path := ⟨"test.ts"⟩
  dialect := .typeScript
  text := "class C \x7b s = \x7b\x7d; m() \x7b class D \x7b n() \x7b " ++
    "this.s.subscribe(a, b); \x7d \x7d \x7d \x7d\n"
  tree := .mk { kind := .program, stop := 72 } [
    .mk { kind := .classDeclaration, stop := 71 } [
      .mk { kind := .classExpression, named := false, stop := 5 } [],
      .mk { kind := .typeIdentifier, field := some .name, start := 6, stop := 7 } [],
      .mk { kind := .classBody, field := some (.other "body"), start := 8, stop := 71 } [
        .mk { kind := .other "\x7b", named := false, start := 8, stop := 9 } [],
        .mk { kind := .publicFieldDefinition, start := 10, stop := 16 } [
          .mk { kind := .other "property_identifier", field := some .name, start := 10,
                stop := 11 } [],
          .mk { kind := .other "=", named := false, start := 12, stop := 13 } [],
          .mk { kind := .objectLiteral, field := some .value, start := 14, stop := 16 } [
            .mk { kind := .other "\x7b", named := false, start := 14, stop := 15 } [],
            .mk { kind := .other "\x7d", named := false, start := 15, stop := 16 } []]],
        .mk { kind := .other ";", named := false, start := 16, stop := 17 } [],
        .mk { kind := .methodDefinition, start := 18, stop := 69 } [
          .mk { kind := .other "property_identifier", field := some .name, start := 18,
                stop := 19 } [],
          .mk { kind := .formalParameters, field := some (.other "parameters"), start := 19,
                stop := 21 } [
            .mk { kind := .other "(", named := false, start := 19, stop := 20 } [],
            .mk { kind := .other ")", named := false, start := 20, stop := 21 } []],
          .mk { kind := .statementBlock, field := some (.other "body"), start := 22,
                stop := 69 } [
            .mk { kind := .other "\x7b", named := false, start := 22, stop := 23 } [],
            .mk { kind := .classDeclaration, start := 24, stop := 67 } [
              .mk { kind := .classExpression, named := false, start := 24, stop := 29 } [],
              .mk { kind := .typeIdentifier, field := some .name, start := 30, stop := 31 } [],
              .mk { kind := .classBody, field := some (.other "body"), start := 32,
                    stop := 67 } [
                .mk { kind := .other "\x7b", named := false, start := 32, stop := 33 } [],
                .mk { kind := .methodDefinition, start := 34, stop := 65 } [
                  .mk { kind := .other "property_identifier", field := some .name, start := 34,
                        stop := 35 } [],
                  .mk { kind := .formalParameters, field := some (.other "parameters"),
                        start := 35, stop := 37 } [
                    .mk { kind := .other "(", named := false, start := 35, stop := 36 } [],
                    .mk { kind := .other ")", named := false, start := 36, stop := 37 } []],
                  .mk { kind := .statementBlock, field := some (.other "body"), start := 38,
                        stop := 65 } [
                    .mk { kind := .other "\x7b", named := false, start := 38, stop := 39 } [],
                    .mk { kind := .other "expression_statement", start := 40, stop := 63 } [
                      .mk { kind := .callExpression, start := 40, stop := 62 } [
                        .mk { kind := .memberExpression, field := some .function, start := 40,
                              stop := 56 } [
                          .mk { kind := .memberExpression, field := some .object, start := 40,
                                stop := 46 } [
                            .mk { kind := .thisExpression, field := some .object, start := 40,
                                  stop := 44 } [],
                            .mk { kind := .other ".", named := false, start := 44,
                                  stop := 45 } [],
                            .mk { kind := .other "property_identifier",
                                  field := some .property, start := 45, stop := 46 } []],
                          .mk { kind := .other ".", named := false, start := 46, stop := 47 } [],
                          .mk { kind := .other "property_identifier", field := some .property,
                                start := 47, stop := 56 } []],
                        .mk { kind := .arguments, field := some .arguments, start := 56,
                              stop := 62 } [
                          .mk { kind := .other "(", named := false, start := 56, stop := 57 } [],
                          .mk { kind := .identifier, start := 57, stop := 58 } [],
                          .mk { kind := .other ",", named := false, start := 58, stop := 59 } [],
                          .mk { kind := .identifier, start := 60, stop := 61 } [],
                          .mk { kind := .other ")", named := false, start := 61,
                                stop := 62 } []]],
                      .mk { kind := .other ";", named := false, start := 62, stop := 63 } []],
                    .mk { kind := .other "\x7d", named := false, start := 64, stop := 65 } []]],
                .mk { kind := .other "\x7d", named := false, start := 66, stop := 67 } []]],
            .mk { kind := .other "\x7d", named := false, start := 68, stop := 69 } []]],
        .mk { kind := .other "\x7d", named := false, start := 70, stop := 71 } []]]]

/-- The inner class declares no such field, and still the use in it is ruled out, by the field of
the outer class. -/
theorem borrowedField_use_ruled_out :
    PlainNames borrowedField ∧
      ThisMember borrowedField.text (borrowedField.placeAt 35) "s" ∧
      (borrowedField.placeAt 35).enclosingClassBody? = some (borrowedField.placeAt 23) ∧
      ¬ HasField borrowedField (borrowedField.placeAt 23) "s" ∧
      (TypeOracle.ofFile borrowedField).couldBeObservable (borrowedField.placeAt 35) = false ∧
      (TypeOracle.ofFile borrowedField).couldBeFunction (borrowedField.placeAt 35) = false := by
  have hnames : PlainNames borrowedField := .of_isPrefixOf_eq_false (by decide)
  have hbody : Within borrowedField.root (borrowedField.placeAt 23) :=
    mem_preorder.mp (placeAt_mem (by decide))
  have hnone : ¬ HasField borrowedField (borrowedField.placeAt 23) "s" := by
    rw [hnames.hasField_iff hbody]
    decide
  exact ⟨hnames, ⟨rfl, ⟨borrowedField.placeAt 36, rfl, rfl⟩, borrowedField.placeAt 38, rfl,
    by decide⟩, rfl, hnone, by decide, by decide⟩

end Oracle

end ObserverLint
