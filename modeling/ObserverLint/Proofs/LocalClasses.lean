import ObserverLint.Proofs.Aliases

namespace ObserverLint.Oracle

open Place
open SourceFile (placeAt_mem places_split_placeAt)

structure DeclaresClass (source : String) (q scope : Place) (name : String) : Prop where
  isClass : q.kind = .classDeclaration ∨ q.kind = .abstractClassDeclaration
  isNamed : ∃ n, q.child? .name = some n ∧ n.text source = name
  inScope : q.declaringScope? false = some scope

def HasHeritage (q : Place) : Prop := ∃ h ∈ q.namedChildren, h.kind = .classHeritage

instance (q : Place) : Decidable (HasHeritage q) :=
  inferInstanceAs (Decidable (∃ h ∈ q.namedChildren, h.kind = .classHeritage))

/-- The scope declares a class of the name, and no class that it declares by the name has a
heritage. -/
def PlainClassIn (file : SourceFile) (scope : Place) (name : String) : Prop :=
  (∃ q ∈ file.root.preorder, DeclaresClass file.text q scope name) ∧
    ∀ q ∈ file.root.preorder, DeclaresClass file.text q scope name → ¬ HasHeritage q

theorem decide_hasHeritage (q : Place) :
    decide (HasHeritage q) = q.namedChildren.any fun c => c.kind == .classHeritage := by
  rw [Bool.eq_iff_iff, decide_eq_true_iff]
  simp [HasHeritage]

theorem DeclaresClass.classAt?_eq {source : String} {q scope : Place} {name : String}
    (h : DeclaresClass source q scope name) :
    classAt? source q = some ⟨scope.address, name, decide (HasHeritage q)⟩ := by
  obtain ⟨hkind, ⟨n, hname, rfl⟩, hscope⟩ := h
  rcases hkind with hkind | hkind
  all_goals simp only [classAt?, hkind, hname, hscope, decide_hasHeritage]

theorem exists_declaresClass_of_classAt? {source : String} {q : Place} {c : ClassBinding}
    (h : classAt? source q = some c) :
    ∃ scope, DeclaresClass source q scope c.name ∧ c.scope = scope.address := by
  unfold classAt? at h
  cases hkind : q.kind
  all_goals simp only [hkind] at h
  case classDeclaration | abstractClassDeclaration =>
    split at h
    · rename_i n scope hname hscope
      obtain rfl := Option.some.inj h
      exact ⟨scope, ⟨by simp [hkind], ⟨n, hname, rfl⟩, hscope⟩, rfl⟩
    · cases h
  all_goals cases h

/-- A name stands for plain classes in a scope if it stands for some class there and for no derived
one. -/
theorem Declarations.derivedIn?_eq_some_false_iff {d : Declarations} {scope : Address}
    {name : String} :
    d.derivedIn? scope name = some false ↔
      (∃ c ∈ d.classes, c.scope = scope ∧ c.name = name) ∧
        ∀ c ∈ d.classes, c.scope = scope ∧ c.name = name → c.derived = false := by
  have hmem (c : ClassBinding) :
      c ∈ d.classes.filter (fun c => c.scope == scope && c.name == name) ↔
        c ∈ d.classes ∧ c.scope = scope ∧ c.name = name := by
    simp
  constructor
  · intro h
    refine ⟨exists_class_of_derivedIn? h, ?_⟩
    intro c hc hat
    unfold derivedIn? at h
    split at h
    · cases h
    · have hnone := List.any_eq_false.mp (Option.some.inj h)
      simpa using hnone c ((hmem c).mpr ⟨hc, hat⟩)
  · rintro ⟨⟨c, hc, hat⟩, hall⟩
    unfold derivedIn?
    split
    · rename_i hnil
      have hfound := (hmem c).mpr ⟨hc, hat⟩
      rw [hnil] at hfound
      cases hfound
    · refine congrArg some (List.any_eq_false.mpr ?_)
      intro c hc
      obtain ⟨hc, hat⟩ := (hmem c).mp hc
      simp [hall c hc hat]

section Classes

variable {file : SourceFile} {scope : Place} {name : String}

theorem mem_classes {c : ClassBinding} :
    c ∈ (declarations file).classes ↔
      ∃ q ∈ file.root.preorder, classAt? file.text q = some c := by
  have hclasses := known_classes file file.places
  rw [known, ← declarations] at hclasses
  rw [hclasses, List.mem_filterMap, SourceFile.places_eq_preorder]

/-- Every class that is known in a scope is declared somewhere in the file, and there it shows
whether it is derived. -/
theorem mem_classes_in_iff (hscope : Within file.root scope) {derived : Bool} :
    ⟨scope.address, name, derived⟩ ∈ (declarations file).classes ↔
      ∃ q ∈ file.root.preorder, DeclaresClass file.text q scope name ∧
        derived = decide (HasHeritage q) := by
  rw [mem_classes]
  constructor
  · rintro ⟨q, hq, hclass⟩
    obtain ⟨other, hdeclares, haddress⟩ := exists_declaresClass_of_classAt? hclass
    have hother := within_of_declaringScope?_eq_some (mem_preorder.mp hq) hdeclares.inScope
    obtain rfl := eq_of_address_eq hscope hother haddress
    have heq := hclass.symm.trans hdeclares.classAt?_eq
    exact ⟨q, hq, hdeclares, congrArg ClassBinding.derived (Option.some.inj heq)⟩
  · rintro ⟨q, hq, hdeclares, rfl⟩
    exact ⟨q, hq, hdeclares.classAt?_eq⟩

theorem derivedIn?_declarations_iff (hscope : Within file.root scope) :
    (declarations file).derivedIn? scope.address name = some false ↔
      PlainClassIn file scope name := by
  rw [Declarations.derivedIn?_eq_some_false_iff]
  constructor
  · rintro ⟨⟨⟨_, _, derived⟩, hc, rfl, rfl⟩, hall⟩
    obtain ⟨q, hq, hdeclares, -⟩ := (mem_classes_in_iff hscope).mp hc
    refine ⟨⟨q, hq, hdeclares⟩, ?_⟩
    intro r hr hagain
    exact of_decide_eq_false
      (hall _ ((mem_classes_in_iff hscope).mpr ⟨r, hr, hagain, rfl⟩) ⟨rfl, rfl⟩)
  · rintro ⟨⟨q, hq, hdeclares⟩, hall⟩
    refine ⟨⟨_, (mem_classes_in_iff hscope).mpr ⟨q, hq, hdeclares, rfl⟩, rfl, rfl⟩, ?_⟩
    rintro ⟨_, _, derived⟩ hc ⟨rfl, rfl⟩
    obtain ⟨r, hr, hagain, rfl⟩ := (mem_classes_in_iff hscope).mp hc
    exact decide_eq_false (hall r hr hagain)

end Classes

section Objects

variable {file : SourceFile} {p scope : Place} {name : String}

theorem NearestScope.within {bindings : List Binding} {t : Node} (hp : Within (root t) p)
    (h : NearestScope bindings p name scope) : Within (root t) scope := by
  obtain ⟨nearer, outer, hsplit, -, -⟩ := h
  refine (within_of_mem_selfAndAncestors hp ?_).1
  rw [hsplit]
  exact List.mem_append_right _ List.mem_cons_self

/-- The answer about a new object goes by the class declarations of the nearest scope that declares
the name. -/
theorem Creates.ruled_out_iff (hp : Within file.root p) (hnew : Creates file.text p name) :
    (TypeOracle.ofFile file).couldBeObservable p = false ↔
      ∃ scope, NearestScope (contributions file) p name scope ∧ PlainClassIn file scope name := by
  have hanswer : (TypeOracle.ofFile file).couldBe .observable p = false ↔
      ∃ scope, NearestScope (contributions file) p name scope ∧
        (declarations file).derivedIn? scope.address name = some false :=
    hnew.couldBe_eq_false_iff
  refine hanswer.trans (exists_congr fun scope => and_congr_right fun hnearest => ?_)
  exact derivedIn?_declarations_iff (hnearest.within hp)

theorem creates_of_ruled_out (hkind : p.kind = .newExpression)
    (h : (TypeOracle.ofFile file).couldBeObservable p = false) :
    ∃ name, Creates file.text p name := by
  have hshape : (newShape (declarations file) file.text p).observable = .no := by
    rw [← exprShape_newExpression hkind]
    exact Possibility.couldBe_eq_false_iff.mp h
  unfold newShape at hshape
  split at hshape
  · cases hshape
  · rename_i callee hcallee
    by_cases hlisted : lastName (callee.text file.text) ∈ observableTypes
    · rw [if_pos hlisted] at hshape
      cases hshape
    · by_cases hidentifier : callee.kind = .identifier
      · exact ⟨_, hkind, ⟨callee, hcallee, hidentifier, rfl⟩, hlisted⟩
      · rw [if_neg hlisted, if_pos (bne_iff_ne.mpr hidentifier)] at hshape
        cases hshape

end Objects

/-- A new object is ruled out as a stream exactly if it is made of a name that is not a well-known
stream and that stands for plain classes in the nearest scope that declares it. -/
theorem new_ruled_out_iff_plain_class {file : SourceFile} {p : Place}
    (hp : p ∈ file.root.preorder) (hkind : p.kind = .newExpression) :
    (TypeOracle.ofFile file).couldBeObservable p = false ↔
      ∃ callee scope, p.child? .constructor = some callee ∧ callee.kind = .identifier ∧
        lastName (callee.text file.text) ∉ observableTypes ∧
        NearestScope (contributions file) p (lastName (callee.text file.text)) scope ∧
        (∃ q ∈ file.root.preorder,
          DeclaresClass file.text q scope (lastName (callee.text file.text))) ∧
        ∀ q ∈ file.root.preorder,
          DeclaresClass file.text q scope (lastName (callee.text file.text)) → ¬ HasHeritage q := by
  have hwithin := mem_preorder.mp hp
  constructor
  · intro hanswer
    obtain ⟨name, hnew⟩ := creates_of_ruled_out hkind hanswer
    obtain ⟨scope, hnearest, hplain⟩ := (hnew.ruled_out_iff hwithin).mp hanswer
    obtain ⟨callee, hcallee, hidentifier, rfl⟩ := hnew.callee
    exact ⟨callee, scope, hcallee, hidentifier, hnew.unlisted, hnearest, hplain⟩
  · rintro ⟨callee, scope, hcallee, hidentifier, hunlisted, hnearest, hplain⟩
    have hnew : Creates file.text p (lastName (callee.text file.text)) :=
      ⟨hkind, ⟨callee, hcallee, hidentifier, rfl⟩, hunlisted⟩
    exact (hnew.ruled_out_iff hwithin).mpr ⟨scope, hnearest, hplain⟩

/-- `class E extends B{}{let s=new E;class E{}}` -/
def hiddenBase : SourceFile where
  path := ⟨"hidden.ts"⟩
  dialect := .typeScript
  text := "class E extends B\x7b\x7d\x7blet s=new E;class E\x7b\x7d\x7d"
  tree := .mk { kind := .program, stop := 42 } [
    .mk { kind := .classDeclaration, stop := 19 } [
      .mk { kind := .typeIdentifier, field := some .name, start := 6, stop := 7 } [],
      .mk { kind := .classHeritage, start := 8, stop := 17 } [
        .mk { kind := .other "extends_clause", start := 8, stop := 17 } []],
      .mk { kind := .classBody, field := some (.other "body"), start := 17, stop := 19 } []],
    .mk { kind := .statementBlock, start := 19, stop := 42 } [
      .mk { kind := .other "lexical_declaration", start := 20, stop := 32 } [
        .mk { kind := .variableDeclarator, start := 24, stop := 31 } [
          .mk { kind := .identifier, field := some .name, start := 24, stop := 25 } [],
          .mk { kind := .newExpression, field := some .value, start := 26, stop := 31 } [
            .mk { kind := .identifier, field := some .constructor, start := 30, stop := 31 } []]]],
      .mk { kind := .classDeclaration, start := 32, stop := 41 } [
        .mk { kind := .typeIdentifier, field := some .name, start := 38, stop := 39 } [],
        .mk { kind := .classBody, field := some (.other "body"), start := 39, stop := 41 } []]]]

/-- The class in the block is declared after its use, and hides a derived class of the same name. -/
theorem hiddenBase_new_ruled_out :
    hiddenBase.placeAt 10 ∈ hiddenBase.root.preorder ∧
      (hiddenBase.placeAt 10).kind = .newExpression ∧
      (TypeOracle.ofFile hiddenBase).couldBeObservable (hiddenBase.placeAt 10) = false ∧
      ∃ callee scope, (hiddenBase.placeAt 10).child? .constructor = some callee ∧
        callee.kind = .identifier ∧ lastName (callee.text hiddenBase.text) ∉ observableTypes ∧
        NearestScope (contributions hiddenBase) (hiddenBase.placeAt 10)
          (lastName (callee.text hiddenBase.text)) scope ∧
        (∃ q ∈ hiddenBase.root.preorder,
          DeclaresClass hiddenBase.text q scope (lastName (callee.text hiddenBase.text))) ∧
        ∀ q ∈ hiddenBase.root.preorder,
          DeclaresClass hiddenBase.text q scope (lastName (callee.text hiddenBase.text)) →
            ¬ HasHeritage q := by
  have hanswer : (TypeOracle.ofFile hiddenBase).couldBeObservable (hiddenBase.placeAt 10) =
      false := by
    decide
  exact ⟨placeAt_mem (by decide), rfl, hanswer,
    (new_ruled_out_iff_plain_class (placeAt_mem (by decide)) rfl).mp hanswer⟩

def otherContributions (file : SourceFile) : List Binding :=
  contributionsFrom file.text (classDeclarations file.text file.places) file.places

theorem contributions_eq_classes_append (file : SourceFile) :
    contributions file =
      (classDeclarations file.text file.places).bindings ++ otherContributions file := rfl

def HasClause (kinds : List Kind) (q : Place) : Prop :=
  ∃ h ∈ q.namedChildren, h.kind = .classHeritage ∧ ∃ c ∈ h.children, c.kind ∈ kinds

instance (kinds : List Kind) (q : Place) : Decidable (HasClause kinds q) :=
  inferInstanceAs (Decidable (∃ h ∈ q.namedChildren, h.kind = .classHeritage ∧
    ∃ c ∈ h.children, c.kind ∈ kinds))

/-- The class extends something. TypeScript has a clause for that, JavaScript only the keyword. -/
abbrev Extends : Place → Prop := HasClause [.other "extends_clause", .other "extends"]

abbrev Implements : Place → Prop := HasClause [.other "implements_clause"]

/-- What the class has for a heritage says what it extends or what it implements. -/
def HeritageSpelled (q : Place) : Prop := HasHeritage q → Extends q ∨ Implements q

theorem HasClause.hasHeritage {kinds : List Kind} {q : Place} (h : HasClause kinds q) :
    HasHeritage q := by
  obtain ⟨heritage, hmem, hkind, -⟩ := h
  exact ⟨heritage, hmem, hkind⟩

/-- What the first pass over a file declares are classes. -/
theorem exists_declaresClass_of_mem_bindings {file : SourceFile} {b : Binding}
    (hb : b ∈ (classDeclarations file.text file.places).bindings) :
    ∃ q ∈ file.root.preorder, ∃ scope, DeclaresClass file.text q scope b.name ∧
      b.scope = scope.address := by
  obtain ⟨c, hc, rfl⟩ := List.mem_map.mp hb
  obtain ⟨q, hq, hclass⟩ := List.mem_filterMap.mp hc
  obtain ⟨scope, hdeclares, haddress⟩ := exists_declaresClass_of_classAt? hclass
  exact ⟨q, mem_preorder.mpr (SourceFile.mem_places.mp hq), scope, hdeclares, haddress⟩

/-- A name that a scope declares by classes only stands for some class there. -/
theorem exists_declaresClass_of_only_classes {file : SourceFile} {scope : Place} {name : String}
    (hscope : Within file.root scope) (hdeclared : ∃ b ∈ contributions file, b.IsAt scope name)
    (honly : ∀ b ∈ otherContributions file, ¬ b.IsAt scope name) :
    ∃ q ∈ file.root.preorder, DeclaresClass file.text q scope name := by
  obtain ⟨b, hb, hat⟩ := hdeclared
  rw [contributions_eq_classes_append, List.mem_append] at hb
  rcases hb with hb | hb
  · obtain ⟨q, hq, other, hdeclares, haddress⟩ := exists_declaresClass_of_mem_bindings hb
    have hother := within_of_declaringScope?_eq_some (mem_preorder.mp hq) hdeclares.inScope
    obtain rfl := eq_of_address_eq hscope hother (hat.1.symm.trans haddress)
    obtain rfl := hat.2
    exact ⟨q, hq, hdeclares⟩
  · exact absurd hat (honly b hb)

/-- A new object of a class that extends nothing, where the nearest scope that declares the name has
nothing but such classes for it: it is taken for plain exactly if none of these classes has a
heritage, so it is not if one of them implements something. -/
theorem unextended_class_plain_iff_no_heritage {file : SourceFile} {p scope : Place} {name : String}
    (hp : p ∈ file.root.preorder) (hnew : Creates file.text p name)
    (hnearest : NearestScope (contributions file) p name scope)
    (honly : ∀ b ∈ otherContributions file, ¬ b.IsAt scope name)
    (hextends : ∀ q ∈ file.root.preorder, DeclaresClass file.text q scope name → ¬ Extends q) :
    ((TypeOracle.ofFile file).couldBeObservable p = false ↔
      ∀ q ∈ file.root.preorder, DeclaresClass file.text q scope name → ¬ HasHeritage q) ∧
    ((∀ q ∈ file.root.preorder, DeclaresClass file.text q scope name → HeritageSpelled q) →
      ((TypeOracle.ofFile file).couldBeObservable p = true ↔
        ∃ q ∈ file.root.preorder, DeclaresClass file.text q scope name ∧ Implements q)) := by
  have hwithin := mem_preorder.mp hp
  have hscope := hnearest.within hwithin
  have ⟨_, _, _, _, hdeclared⟩ := hnearest
  have hclass := exists_declaresClass_of_only_classes hscope hdeclared honly
  have hplain : (TypeOracle.ofFile file).couldBeObservable p = false ↔
      ∀ q ∈ file.root.preorder, DeclaresClass file.text q scope name → ¬ HasHeritage q := by
    rw [hnew.ruled_out_iff hwithin]
    constructor
    · rintro ⟨other, hother, -, hall⟩
      obtain rfl := eq_of_address_eq (hother.within hwithin) hscope (hother.address_eq hnearest)
      exact hall
    · intro hall
      exact ⟨scope, hnearest, hclass, hall⟩
  refine ⟨hplain, ?_⟩
  intro hspelled
  rw [← not_iff_not, Bool.not_eq_true, hplain]
  constructor
  · rintro hall ⟨q, hq, hdeclares, himplements⟩
    exact hall q hq hdeclares himplements.hasHeritage
  · intro hnone q hq hdeclares hheritage
    rcases hspelled q hq hdeclares hheritage with hextended | himplements
    · exact hextends q hq hdeclares hextended
    · exact hnone ⟨q, hq, hdeclares, himplements⟩

theorem DeclaresClass.scope_address {source : String} {q scope : Place} {name : String}
    (h : DeclaresClass source q scope name) :
    (q.declaringScope? false).map address = some scope.address := by
  rw [h.inScope, Option.map_some]

/-- Of the two classes only the one in the block counts, and it extends nothing. -/
theorem hiddenBase_class_recognised :
    Creates hiddenBase.text (hiddenBase.placeAt 10) "E" ∧
      NearestScope (contributions hiddenBase) (hiddenBase.placeAt 10) "E"
        (hiddenBase.placeAt 6) ∧
      (∀ b ∈ otherContributions hiddenBase, ¬ b.IsAt (hiddenBase.placeAt 6) "E") ∧
      Extends (hiddenBase.placeAt 1) ∧
      (∀ q ∈ hiddenBase.root.preorder,
        DeclaresClass hiddenBase.text q (hiddenBase.placeAt 6) "E" → ¬ HasHeritage q) ∧
      (TypeOracle.ofFile hiddenBase).couldBeObservable (hiddenBase.placeAt 10) = false := by
  have hnew : Creates hiddenBase.text (hiddenBase.placeAt 10) "E" :=
    ⟨rfl, ⟨hiddenBase.placeAt 11, rfl, rfl, by decide⟩, by decide⟩
  have hnearest : NearestScope (contributions hiddenBase) (hiddenBase.placeAt 10) "E"
      (hiddenBase.placeAt 6) :=
    nearestScope_of_splitAt 3 rfl (by decide) (by decide)
  have honly : ∀ b ∈ otherContributions hiddenBase, ¬ b.IsAt (hiddenBase.placeAt 6) "E" := by
    decide
  have hblock : ∀ q ∈ hiddenBase.root.preorder,
      (q.declaringScope? false).map address = some (hiddenBase.placeAt 6).address →
        ¬ HasHeritage q := by
    decide
  have hheritage (q : Place) (hq : q ∈ hiddenBase.root.preorder)
      (h : DeclaresClass hiddenBase.text q (hiddenBase.placeAt 6) "E") : ¬ HasHeritage q :=
    hblock q hq h.scope_address
  have hanswer := unextended_class_plain_iff_no_heritage (placeAt_mem (by decide)) hnew hnearest
    honly fun q hq h hextends => hheritage q hq h hextends.hasHeritage
  exact ⟨hnew, hnearest, honly, by decide, hheritage, hanswer.1.mpr hheritage⟩

/-- A class that implements an interface, a variable with a new object of the class, and a
subscription to it. -/
def implementer : SourceFile where
  path := ⟨"test.ts"⟩
  dialect := .typeScript
  text := "class E implements I \x7b\x7d\nconst s = new E();\ns.subscribe(a, b);\n"
  tree := .mk { kind := .program, stop := 62 } [
    .mk { kind := .classDeclaration, stop := 23 } [
      .mk { kind := .classExpression, named := false, stop := 5 } [],
      .mk { kind := .typeIdentifier, field := some .name, start := 6, stop := 7 } [],
      .mk { kind := .classHeritage, start := 8, stop := 20 } [
        .mk { kind := .other "implements_clause", start := 8, stop := 20 } [
          .mk { kind := .other "implements", named := false, start := 8, stop := 18 } [],
          .mk { kind := .typeIdentifier, start := 19, stop := 20 } []]],
      .mk { kind := .classBody, field := some (.other "body"), start := 21, stop := 23 } [
        .mk { kind := .other "\x7b", named := false, start := 21, stop := 22 } [],
        .mk { kind := .other "\x7d", named := false, start := 22, stop := 23 } []]],
    .mk { kind := .other "lexical_declaration", start := 24, stop := 42 } [
      .mk { kind := .other "const", field := some .kind, named := false, start := 24,
            stop := 29 } [],
      .mk { kind := .variableDeclarator, start := 30, stop := 41 } [
        .mk { kind := .identifier, field := some .name, start := 30, stop := 31 } [],
        .mk { kind := .other "=", named := false, start := 32, stop := 33 } [],
        .mk { kind := .newExpression, field := some .value, start := 34, stop := 41 } [
          .mk { kind := .other "new", named := false, start := 34, stop := 37 } [],
          .mk { kind := .identifier, field := some .constructor, start := 38, stop := 39 } [],
          .mk { kind := .arguments, field := some .arguments, start := 39, stop := 41 } [
            .mk { kind := .other "(", named := false, start := 39, stop := 40 } [],
            .mk { kind := .other ")", named := false, start := 40, stop := 41 } []]]],
      .mk { kind := .other ";", named := false, start := 41, stop := 42 } []],
    subscription 43]

/-- The class extends nothing and is the only thing declared by its name, yet a new object of it
could be a stream, and so could the variable that holds it. -/
theorem implementer_object_not_recognised :
    Creates implementer.text (implementer.placeAt 16) "E" ∧
      NearestScope (contributions implementer) (implementer.placeAt 16) "E" implementer.root ∧
      (∀ b ∈ otherContributions implementer, ¬ b.IsAt implementer.root "E") ∧
      (∀ q ∈ implementer.root.preorder,
        DeclaresClass implementer.text q implementer.root "E" → ¬ Extends q) ∧
      (TypeOracle.ofFile implementer).couldBeObservable (implementer.placeAt 16) = true ∧
      (TypeOracle.ofFile implementer).couldBeObservable (implementer.placeAt 26) = true := by
  have hextends : ∀ q ∈ implementer.root.preorder, ¬ Extends q := by
    decide
  refine ⟨⟨rfl, ⟨implementer.placeAt 18, rfl, rfl, by decide⟩, by decide⟩,
    nearestScope_of_splitAt 3 rfl (by decide) (by decide), by decide, ?_, by decide, by decide⟩
  intro q hq _
  exact hextends q hq

section Order

variable {source : String} {d e : Declarations} {name : String}

/-- Declarations of other names do not change what a name is found to be. -/
theorem resolve?_addBindings (d : Declarations) {bs : List Binding}
    (h : ∀ b ∈ bs, b.name ≠ name) (u : Place) :
    (d.addBindings bs).resolve? u name = d.resolve? u name := by
  have hnone (scope : Address) :
      bs.filter (fun b => b.scope == scope && b.name == name) = [] := by
    rw [List.filter_eq_nil_iff]
    intro b hb
    simp [h b hb]
  simp only [Declarations.resolve?, Declarations.shapeIn?, Declarations.addBindings,
    List.filter_append, hnone, List.append_nil]

/-- Nor does reading places that declare other names only. -/
theorem resolve?_foldl_collectAt (ps : List Place)
    (h : ∀ b ∈ contributionsFrom source d ps, b.name ≠ name) (u : Place) :
    (ps.foldl (collectAt source) d).resolve? u name = d.resolve? u name := by
  induction ps generalizing d with
  | nil => rfl
  | cons p ps ih =>
    rw [contributionsFrom, List.forall_mem_append] at h
    rw [List.foldl_cons, ih h.2, collectAt, resolve?_addBindings d h.1]

theorem newShape_congr_of_callee {p callee : Place} (hcallee : p.child? .constructor = some callee)
    (hclasses : d.classes = e.classes)
    (h : d.resolve? p (lastName (callee.text source)) =
      e.resolve? p (lastName (callee.text source))) :
    newShape d source p = newShape e source p := by
  simp only [newShape, hcallee, h, Declarations.derivedIn?, hclasses]

end Order

/-- A variable or field without a type whose value is `new C(…)`, and what is read before and after
its declaration. -/
structure NewObject (file : SourceFile) where
  before : List Place
  place : Place
  after : List Place
  split : file.places = before ++ place :: after
  declares : place.kind = .variableDeclarator ∨ place.kind = .publicFieldDefinition ∨
    place.kind = .fieldDefinition
  untyped : place.child? .type = none
  value : Place
  hasValue : place.child? .value = some value
  isNew : value.kind = .newExpression
  callee : Place
  hasCallee : value.child? .constructor = some callee
  isName : callee.kind = .identifier

namespace NewObject

variable {file : SourceFile} (o : NewObject file)

def className : String := lastName (o.callee.text file.text)

/-- Once the classes are known, nothing that is read has a say about a name that only classes have:
the object is judged the same at any moment. -/
theorem exprShape_known (h : ∀ b ∈ otherContributions file, b.name ≠ o.className)
    {read rest : List Place} (hread : file.places = read ++ rest) :
    exprShape (known file read) file.text o.value =
      exprShape (classDeclarations file.text file.places) file.text o.value := by
  have hnames : ∀ b ∈ contributionsFrom file.text (classDeclarations file.text file.places) read,
      b.name ≠ o.className := by
    rw [otherContributions, hread, contributionsFrom_append, ← hread,
      List.forall_mem_append] at h
    exact h.1
  rw [exprShape_newExpression o.isNew, exprShape_newExpression o.isNew]
  exact newShape_congr_of_callee o.hasCallee (known_classes file read)
    (resolve?_foldl_collectAt read hnames o.value)

end NewObject

/-- Where all that a name is declared to be is classes, the order of declarations plays no part for
new objects: the declaration that holds one gives its names what the whole file says about the
object, or leaves them open if it takes the object apart. -/
theorem new_object_judged_as_in_the_end {file : SourceFile} (o : NewObject file)
    (hclasses : ∀ b ∈ otherContributions file, b.name ≠ o.className) :
    bindingShape (known file o.before) file.text o.place =
      exprShape (declarations file) file.text o.value ∧
    ∀ b ∈ bindingsAt (known file o.before) file.text o.place, b ∈ contributions file ∧
      (b.shape = exprShape (declarations file) file.text o.value ∨ b.shape = .unknown) := by
  have hend : known file file.places = declarations file := rfl
  have hshape : bindingShape (known file o.before) file.text o.place =
      exprShape (declarations file) file.text o.value := by
    simp only [bindingShape, o.untyped, o.hasValue]
    rw [o.exprShape_known hclasses o.split, ← hend,
      o.exprShape_known hclasses (List.append_nil _).symm]
  refine ⟨hshape, ?_⟩
  intro b hb
  constructor
  · rw [contributions_eq o.split]
    exact List.mem_append_right _ (List.mem_append_left _ hb)
  · rw [← hshape]
    exact shape_of_declaration o.declares hb

def hiddenBaseObject : NewObject hiddenBase where
  before := hiddenBase.places.take 8
  place := hiddenBase.placeAt 8
  after := hiddenBase.places.drop 9
  split := places_split_placeAt (by decide)
  declares := Or.inl rfl
  untyped := rfl
  value := hiddenBase.placeAt 10
  hasValue := rfl
  isNew := rfl
  callee := hiddenBase.placeAt 11
  hasCallee := rfl
  isName := rfl

/-- The class is declared twice, in the block only after the variable; still the variable is known
to be plain as soon as it is read. -/
theorem hiddenBaseObject_judged_at_once :
    (∀ b ∈ otherContributions hiddenBase, b.name ≠ hiddenBaseObject.className) ∧
      hiddenBaseObject.className = "E" ∧
      exprShape (declarations hiddenBase) hiddenBase.text hiddenBaseObject.value = .plain ∧
      bindingShape (known hiddenBase hiddenBaseObject.before) hiddenBase.text
        hiddenBaseObject.place = .plain := by
  have hclasses : ∀ b ∈ otherContributions hiddenBase, b.name ≠ hiddenBaseObject.className := by
    decide
  have hend : exprShape (declarations hiddenBase) hiddenBase.text hiddenBaseObject.value =
      .plain := by
    decide
  refine ⟨hclasses, by decide, hend, ?_⟩
  rw [(new_object_judged_as_in_the_end hiddenBaseObject hclasses).1, hend]

end ObserverLint.Oracle
