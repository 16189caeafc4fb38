import ObserverLint.Proofs.Introductions
import ObserverLint.Proofs.Reassignment

namespace ObserverLint.Oracle

open Place
open SourceFile (places_split_placeAt)

/-- Once its wrappers are taken off, the expression at `p` is the one at `c`, or a wrapper around
that one. -/
inductive StandsFor (source : String) : Place → Place → Prop
  | self (p : Place) : StandsFor source p p
  | inside {p q c : Place} : unwrapped? source p = some q → StandsFor source q c →
      StandsFor source p c

theorem StandsFor.exprShape_eq {source : String} {p c : Place} (h : StandsFor source p c)
    (d : Declarations) : exprShape d source p = exprShape d source c := by
  induction h with
  | self => rfl
  | inside hq _ ih => rw [exprShape_of_unwrapped? hq, ih]

theorem StandsFor.couldBe_eq {file : SourceFile} {p c : Place} (h : StandsFor file.text p c)
    (aspect : Aspect) :
    (TypeOracle.ofFile file).couldBe aspect p = (TypeOracle.ofFile file).couldBe aspect c := by
  rw [TypeOracle.ofFile, TypeOracle.couldBe_ofDeclarations, TypeOracle.couldBe_ofDeclarations,
    h.exprShape_eq]

/-- The expression at `c` is `new name(…)`, and the name is not that of a well-known stream. -/
structure Creates (source : String) (c : Place) (name : String) : Prop where
  kind : c.kind = .newExpression
  callee : ∃ callee, c.child? .constructor = some callee ∧ callee.kind = .identifier ∧
    lastName (callee.text source) = name
  unlisted : name ∉ observableTypes

section Consulted

variable {d : Declarations} {source : String} {c : Place} {name : String}

theorem Creates.exprShape_eq (h : Creates source c name) :
    exprShape d source c =
      if ((d.resolve? c name).bind fun found => d.derivedIn? found.1 name) = some false then .plain
      else .unknown := by
  obtain ⟨callee, hcallee, hidentifier, hname⟩ := h.callee
  rw [exprShape_newExpression h.kind, newShape]
  simp only [hcallee, hname, h.unlisted, hidentifier, bne_self_eq_false, if_false,
    Bool.false_eq_true]
  split
  · rename_i hbase
    rw [if_pos hbase]
  · rename_i hother
    rw [if_neg hother]

/-- A new object is ruled out if the nearest scope that declares the name has a class of that name
and no derived one. -/
theorem Creates.exprShape_on_eq_no_iff {aspect : Aspect} (h : Creates source c name) :
    (exprShape d source c).on aspect = .no ↔
      ∃ scope, NearestScope d.bindings c name scope ∧
        d.derivedIn? scope.address name = some false := by
  have hbase : (exprShape d source c).on aspect = .no ↔
      ((d.resolve? c name).bind fun found => d.derivedIn? found.1 name) = some false := by
    rw [h.exprShape_eq]
    split
    · rename_i hfound
      cases aspect <;> simp [hfound, Shape.on, Shape.plain]
    · rename_i hfound
      simp [hfound]
  rw [hbase, Option.bind_eq_some_iff]
  constructor
  · rintro ⟨found, hfound, hderived⟩
    obtain ⟨scope, hscope, haddress, -⟩ := Declarations.resolve?_eq_some_iff.mp hfound
    exact ⟨scope, hscope, by rw [haddress, hderived]⟩
  · rintro ⟨scope, hscope, hderived⟩
    obtain ⟨shape, hfound, -⟩ := Declarations.resolve?_of_nearestScope hscope
    exact ⟨_, hfound, hderived⟩

theorem Creates.couldBe_eq_false_iff {file : SourceFile} {aspect : Aspect}
    (h : Creates file.text c name) :
    (TypeOracle.ofFile file).couldBe aspect c = false ↔
      ∃ scope, NearestScope (contributions file) c name scope ∧
        (declarations file).derivedIn? scope.address name = some false := by
  rw [TypeOracle.ofFile, TypeOracle.couldBe_ofDeclarations, Possibility.couldBe_eq_false_iff,
    h.exprShape_on_eq_no_iff, declarations_bindings]

def ConsultsOrShows (source : String) (c : Place) : Prop :=
  (∃ name, Refers source c name ∨ Creates source c name) ∨
    ∀ d e, exprShape d source c = exprShape e source c

theorem consultsOrShows_identifier (hkind : c.kind = .identifier) : ConsultsOrShows source c := by
  by_cases htext : c.text source = "undefined"
  · right
    intro d e
    rw [exprShape_undefined hkind htext, exprShape_undefined hkind htext]
  · exact Or.inl ⟨_, Or.inl (.identifier hkind htext)⟩

theorem consultsOrShows_memberExpression (hkind : c.kind = .memberExpression) :
    ConsultsOrShows source c := by
  by_cases hthis : ∃ object property, c.child? .object = some object ∧
      c.child? .property = some property ∧ object.kind = .thisExpression
  · obtain ⟨object, property, hobject, hproperty, hthis⟩ := hthis
    exact Or.inl ⟨_, Or.inl (.field hkind hobject hthis hproperty)⟩
  · right
    have hunknown (d : Declarations) : memberShape d source c = .unknown := by
      unfold memberShape
      split
      · rename_i object property hobject hproperty
        have hother : object.kind ≠ .thisExpression := fun h =>
          hthis ⟨object, property, hobject, hproperty, h⟩
        rw [if_neg (by simpa using hother)]
      · rfl
    intro d e
    rw [exprShape_memberExpression hkind, exprShape_memberExpression hkind, hunknown, hunknown]

theorem consultsOrShows_newExpression (hkind : c.kind = .newExpression) :
    ConsultsOrShows source c := by
  cases hcallee : c.child? .constructor with
  | none =>
    right
    intro d e
    simp only [exprShape_newExpression hkind, newShape, hcallee]
  | some callee =>
    by_cases hlisted : lastName (callee.text source) ∈ observableTypes
    · right
      intro d e
      simp only [exprShape_newExpression hkind, newShape, hcallee, hlisted, if_true]
    by_cases hidentifier : callee.kind = .identifier
    · exact Or.inl ⟨_, Or.inr ⟨hkind, ⟨callee, hcallee, hidentifier, rfl⟩, hlisted⟩⟩
    · right
      intro d e
      simp only [exprShape_newExpression hkind, newShape, hcallee, hlisted, if_false,
        bne_iff_ne.mpr hidentifier, if_true]

theorem consultsOrShows_of_not_wrapper (hwrapper : c.kind.isWrapper = false) :
    ConsultsOrShows source c := by
  cases hlookup : c.kind.isLookup with
  | false => exact Or.inr fun d e => exprShape_eq_of_not_lookup hwrapper hlookup
  | true =>
    cases hkind : c.kind
    case identifier => exact consultsOrShows_identifier hkind
    case memberExpression => exact consultsOrShows_memberExpression hkind
    case newExpression => exact consultsOrShows_newExpression hkind
    all_goals simp [hkind, Kind.isLookup] at hlookup

/-- Every expression stands for one whose shape a single name decides or no declaration bears
on. -/
theorem exists_standsFor (source : String) (p : Place) :
    ∃ c, StandsFor source p c ∧ ConsultsOrShows source c := by
  induction p using Place.induction_children with
  | step p ih =>
    cases hwrapper : p.kind.isWrapper with
    | false => exact ⟨p, .self p, consultsOrShows_of_not_wrapper hwrapper⟩
    | true =>
      cases hinside : unwrapped? source p with
      | none =>
        exact ⟨p, .self p, Or.inr (exprShape_eq_of_unwrapped?_eq_none hwrapper hinside)⟩
      | some q =>
        obtain ⟨c, hc, hconsults⟩ := ih q (mem_children_of_unwrapped? hinside)
        exact ⟨c, .inside hinside hc, hconsults⟩

end Consulted

def known (file : SourceFile) (places : List Place) : Declarations :=
  places.foldl (collectAt file.text) (classDeclarations file.text file.places)

theorem known_concat (file : SourceFile) (places : List Place) (p : Place) :
    known file (places ++ [p]) = collectAt file.text (known file places) p := by
  rw [known, List.foldl_append]
  rfl

theorem known_classes (file : SourceFile) (places : List Place) :
    (known file places).classes = file.places.filterMap (classAt? file.text) := by
  unfold known
  induction places using List.reverseRecOn with
  | nil => rfl
  | append_singleton ps p ih =>
    rw [List.foldl_append]
    exact ih

theorem contributions_eq {file : SourceFile} {before after : List Place} {p : Place}
    (h : file.places = before ++ p :: after) :
    contributions file = (known file before).bindings ++
      (bindingsAt (known file before) file.text p ++
        contributionsFrom file.text (known file (before ++ [p])) after) := by
  have hknown : (known file before).bindings = (classDeclarations file.text file.places).bindings ++
      contributionsFrom file.text (classDeclarations file.text file.places) before :=
    foldl_collectAt_bindings _ _ _
  rw [hknown, known_concat, List.append_assoc, known, ← contributionsFrom,
    ← contributionsFrom_append, ← h]
  rfl

/-- Classes are known from the start, and so are their names. -/
theorem exists_binding_of_derivedIn? {file : SourceFile} {places : List Place} {scope : Place}
    {name : String} {derived : Bool}
    (h : (known file places).derivedIn? scope.address name = some derived) :
    ∃ b ∈ (known file places).bindings, b.IsAt scope name := by
  obtain ⟨c, hc, hat⟩ := Declarations.exists_class_of_derivedIn? h
  rw [known_classes] at hc
  refine ⟨⟨c.scope, c.name, .ofClass⟩, ?_, hat⟩
  rw [known, foldl_collectAt_bindings]
  exact List.mem_append_left _ (List.mem_map.mpr ⟨c, hc, rfl⟩)

/-- A variable without a type that is declared with a value, and what is read before and after its
declaration. -/
structure Alias (file : SourceFile) where
  before : List Place
  place : Place
  after : List Place
  split : file.places = before ++ place :: after
  isVariable : place.kind = .variableDeclarator
  untyped : place.child? .type = none
  target : Place
  hasTarget : place.child? .name = some target
  isName : target.kind = .identifier
  value : Place
  hasValue : place.child? .value = some value
  scope : Place
  hasScope : place.declaringScope?
    (place.parent?.any fun q => q.kind == .variableDeclaration) = some scope

namespace Alias

variable {file : SourceFile} (a : Alias file) {aspect : Aspect}

def name : String := a.target.text file.text

def earlier : Declarations := known file a.before

def later : List Binding :=
  contributionsFrom file.text (known file (a.before ++ [a.place])) a.after

/-- What the variable is declared to be: its value as judged when the declaration is read. -/
def binding : Binding := ⟨a.scope.address, a.name, exprShape a.earlier file.text a.value⟩

theorem contributions_eq : contributions file = a.earlier.bindings ++ a.binding :: a.later := by
  have hshape : bindingShape a.earlier file.text a.place =
      exprShape a.earlier file.text a.value := by
    simp only [bindingShape, a.untyped, a.hasValue]
  have hown : bindingsAt a.earlier file.text a.place = [a.binding] := by
    rw [bindingsAt_variable a.isVariable a.hasTarget a.hasScope, bindPattern, hshape,
      patternNames_of_isName (Or.inl a.isName)]
    rfl
  rw [Oracle.contributions_eq a.split]
  exact congrArg (fun own => a.earlier.bindings ++ (own ++ a.later)) hown

theorem earlier_subset : a.earlier.bindings ⊆ contributions file := by
  rw [a.contributions_eq]
  exact List.subset_append_left _ _

theorem later_subset : a.later ⊆ contributions file := by
  rw [a.contributions_eq]
  exact List.subset_append_of_subset_right _ (List.subset_cons_self _ _)

/-- What the value stands for was ruled out when the declaration was read, and is not any more when
the file has been read. -/
inductive Overtaken (aspect : Aspect) : Prop
  /-- The value names a variable or field; a declaration read later, in the same scope or in a
  nearer one, opens it again. -/
  | reference {c old new : Place} {name : String} {b : Binding} :
      StandsFor file.text a.value c → Refers file.text c name →
      NearestScope a.earlier.bindings c name old →
      (∀ b ∈ a.earlier.bindings, b.IsAt old name → b.shape.on aspect = .no) →
      NearestScope (contributions file) c name new →
      b ∈ a.later → b.IsAt new name → b.shape.on aspect ≠ .no → Overtaken aspect
  /-- The value is a new object of a class that is not derived; a declaration in a nearer scope
  hides the class. -/
  | creation {c old new : Place} {name : String} :
      StandsFor file.text a.value c → Creates file.text c name →
      NearestScope a.earlier.bindings c name old →
      a.earlier.derivedIn? old.address name = some false →
      NearestScope (contributions file) c name new → new.address ≠ old.address →
      Overtaken aspect

theorem derivedIn?_earlier (scope : Address) (name : String) :
    a.earlier.derivedIn? scope name = (declarations file).derivedIn? scope name := by
  have hclasses : a.earlier.classes = (declarations file).classes :=
    (known_classes file a.before).trans (known_classes file file.places).symm
  rw [Declarations.derivedIn?, Declarations.derivedIn?, hclasses]

/-- Where the nearest scope of all already had a declaration, it was the nearest before. -/
theorem address_eq_of_declared {c old new : Place} {name : String}
    (hold : NearestScope a.earlier.bindings c name old)
    (hnew : NearestScope (contributions file) c name new)
    (hdeclared : ∃ b ∈ a.earlier.bindings, b.IsAt new name) : new.address = old.address :=
  (hnew.of_subset a.earlier_subset hdeclared).address_eq hold

section Consulted

variable {c : Place} {name : String}

theorem overtaken_of_reference (hc : StandsFor file.text a.value c)
    (hrefers : Refers file.text c name) (hearlier : a.binding.shape.on aspect = .no)
    (hfinal : (TypeOracle.ofFile file).couldBe aspect a.value = true) : a.Overtaken aspect := by
  have hlookup : (a.earlier.lookup c name).on aspect = .no := by
    rw [← hrefers.exprShape_eq, ← hc.exprShape_eq]
    exact hearlier
  obtain ⟨old, hold, hno⟩ := Declarations.lookup_on_eq_no_iff.mp hlookup
  obtain ⟨new, hnew⟩ := hold.exists_of_subset a.earlier_subset
  have hresolves : ResolvesTo file c new name := ⟨hrefers, hnew⟩
  rw [hc.couldBe_eq, hresolves.couldBe_iff] at hfinal
  obtain ⟨b, hb, hat, hopen⟩ := hfinal
  refine .reference hc hrefers hold hno hnew ?_ hat hopen
  -- Neither an earlier declaration nor the alias itself opens what was ruled out.
  rw [a.contributions_eq, List.mem_append, List.mem_cons] at hb
  rcases hb with hb | rfl | hb
  · have haddress := a.address_eq_of_declared hold hnew ⟨b, hb, hat⟩
    exact absurd (hno b hb ⟨hat.1.trans haddress, hat.2⟩) hopen
  · exact absurd hearlier hopen
  · exact hb

theorem overtaken_of_creation (hc : StandsFor file.text a.value c)
    (hcreates : Creates file.text c name) (hearlier : a.binding.shape.on aspect = .no)
    (hfinal : (TypeOracle.ofFile file).couldBe aspect a.value = true) : a.Overtaken aspect := by
  have hshape : (exprShape a.earlier file.text c).on aspect = .no := by
    rw [← hc.exprShape_eq]
    exact hearlier
  obtain ⟨old, hold, hbase⟩ := hcreates.exprShape_on_eq_no_iff.mp hshape
  obtain ⟨new, hnew⟩ := hold.exists_of_subset a.earlier_subset
  refine .creation hc hcreates hold hbase hnew ?_
  -- The same scope would show the same classes.
  intro haddress
  have hruled : (TypeOracle.ofFile file).couldBe aspect c = false := by
    rw [hcreates.couldBe_eq_false_iff]
    refine ⟨new, hnew, ?_⟩
    rw [haddress, ← a.derivedIn?_earlier]
    exact hbase
  rw [hc.couldBe_eq, hruled] at hfinal
  cases hfinal

end Consulted

theorem Overtaken.binding_ruled_out (h : a.Overtaken aspect) : a.binding.shape.on aspect = .no := by
  rcases h with ⟨hc, hrefers, hold, hno, -, -, -, -⟩ | ⟨hc, hcreates, hold, hbase, -, -⟩
  · rw [binding, hc.exprShape_eq, hrefers.exprShape_eq]
    exact Declarations.lookup_on_eq_no_iff.mpr ⟨_, hold, hno⟩
  · rw [binding, hc.exprShape_eq]
    exact hcreates.exprShape_on_eq_no_iff.mpr ⟨_, hold, hbase⟩

theorem Overtaken.couldBe_value (h : a.Overtaken aspect) :
    (TypeOracle.ofFile file).couldBe aspect a.value = true := by
  rcases h with ⟨hc, hrefers, -, -, hnew, hb, hat, hopen⟩ | ⟨hc, hcreates, hold, -, hnew, hne⟩
  · have hresolves : ResolvesTo file _ _ _ := ⟨hrefers, hnew⟩
    rw [hc.couldBe_eq, hresolves.couldBe_iff]
    exact ⟨_, a.later_subset hb, hat, hopen⟩
  · rw [hc.couldBe_eq, ← Bool.not_eq_false, hcreates.couldBe_eq_false_iff]
    -- A class in the scope that decides now would have been known then.
    rintro ⟨scope, hscope, hderived⟩
    rw [← a.derivedIn?_earlier, hscope.address_eq hnew] at hderived
    exact hne (a.address_eq_of_declared hold hnew (exists_binding_of_derivedIn? hderived))

/-- An alias is overtaken exactly if its value was ruled out when it was read and could be, in the
end, what was ruled out. -/
theorem overtaken_iff : a.Overtaken aspect ↔ a.binding.shape.on aspect = .no ∧
    (TypeOracle.ofFile file).couldBe aspect a.value = true := by
  constructor
  · intro h
    exact ⟨h.binding_ruled_out, h.couldBe_value⟩
  · rintro ⟨hearlier, hfinal⟩
    obtain ⟨c, hc, ⟨name, hrefers | hcreates⟩ | hshows⟩ := exists_standsFor file.text a.value
    · exact a.overtaken_of_reference hc hrefers hearlier hfinal
    · exact a.overtaken_of_creation hc hcreates hearlier hfinal
    · -- What no declaration bears on stays as it was.
      have hsame : exprShape (declarations file) file.text a.value = a.binding.shape := by
        rw [binding, hc.exprShape_eq, hc.exprShape_eq, hshows]
      rw [TypeOracle.ofFile, TypeOracle.couldBe_ofDeclarations, hsame, hearlier] at hfinal
      cases hfinal

def Consults (name : String) : Prop :=
  ∃ c, StandsFor file.text a.value c ∧ (Refers file.text c name ∨ Creates file.text c name)

theorem not_overtaken_of_undeclared
    (h : ∀ name, a.Consults name → ∀ b ∈ a.binding :: a.later, b.name ≠ name) :
    ¬ a.Overtaken aspect := by
  rintro (⟨hc, hrefers, -, -, -, hb, hat, -⟩ | ⟨hc, hcreates, hold, -, hnew, hne⟩)
  · exact h _ ⟨_, hc, Or.inl hrefers⟩ _ (List.mem_cons_of_mem _ hb) hat.2
  · have ⟨_, _, _, _, b, hb, hat⟩ := hnew
    rw [a.contributions_eq, List.mem_append] at hb
    rcases hb with hb | hb
    · exact hne (a.address_eq_of_declared hold hnew ⟨b, hb, hat⟩)
    · exact h _ ⟨_, hc, Or.inr hcreates⟩ b hb hat.2

def OtherwisePossible (aspect : Aspect) : Prop :=
  ∃ b ∈ a.earlier.bindings ++ a.later, b.IsAt a.scope a.name ∧ b.shape.on aspect ≠ .no

theorem declaredPossible_iff : DeclaredPossible file aspect a.scope a.name ↔
    a.binding.shape.on aspect ≠ .no ∨ a.OtherwisePossible aspect := by
  rw [DeclaredPossible, OtherwisePossible, a.contributions_eq]
  constructor
  · rintro ⟨b, hb, hat, hopen⟩
    rw [List.mem_append, List.mem_cons] at hb
    rcases hb with hb | rfl | hb
    · exact Or.inr ⟨b, List.mem_append_left _ hb, hat, hopen⟩
    · exact Or.inl hopen
    · exact Or.inr ⟨b, List.mem_append_right _ hb, hat, hopen⟩
  · rintro (hopen | ⟨b, hb, hat, hopen⟩)
    · exact ⟨a.binding, List.mem_append_right _ List.mem_cons_self, ⟨rfl, rfl⟩, hopen⟩
    · refine ⟨b, ?_, hat, hopen⟩
      rcases List.mem_append.mp hb with hb | hb
      · exact List.mem_append_left _ hb
      · exact List.mem_append_right _ (List.mem_cons_of_mem _ hb)

end Alias

/-- A variable whose value could be a stream, or a function: its uses could be one as well exactly
if the value was not ruled out at first and opened again further down, or if another declaration of
the variable leaves it open. In particular they could if the names that the value goes by are not
declared by the alias itself or further down. -/
theorem alias_as_open_as_value_unless_overtaken {file : SourceFile} (a : Alias file)
    (aspect : Aspect) (hvalue : (TypeOracle.ofFile file).couldBe aspect a.value = true) :
    (∀ u, ResolvesTo file u a.scope a.name →
      ((TypeOracle.ofFile file).couldBe aspect u = true ↔
        ¬ a.Overtaken aspect ∨ a.OtherwisePossible aspect)) ∧
    ((∀ name, a.Consults name → ∀ b ∈ a.binding :: a.later, b.name ≠ name) →
      ∀ u, ResolvesTo file u a.scope a.name →
        (TypeOracle.ofFile file).couldBe aspect u = true) := by
  have huses (u : Place) (hu : ResolvesTo file u a.scope a.name) :
      (TypeOracle.ofFile file).couldBe aspect u = true ↔
        ¬ a.Overtaken aspect ∨ a.OtherwisePossible aspect := by
    rw [hu.couldBe_iff, a.declaredPossible_iff, a.overtaken_iff]
    simp only [hvalue, and_true, ne_eq]
  refine ⟨huses, ?_⟩
  intro hundeclared u hu
  exact (huses u hu).mpr (Or.inl (a.not_overtaken_of_undeclared hundeclared))

/-- `let s=u;{let t=(s)!;t}{let s={};}` -/
def aliasedInBlock : SourceFile where
  path := ⟨"alias.ts"⟩
  dialect := .typeScript
  text := "let s=u;\x7blet t=(s)!;t\x7d\x7blet s=\x7b\x7d;\x7d"
  tree := .mk { kind := .program, stop := 33 } [
    .mk { kind := .other "lexical_declaration", stop := 8 } [
      .mk { kind := .variableDeclarator, start := 4, stop := 7 } [
        .mk { kind := .identifier, field := some .name, start := 4, stop := 5 } [],
        .mk { kind := .identifier, field := some .value, start := 6, stop := 7 } []]],
    .mk { kind := .statementBlock, start := 8, stop := 22 } [
      .mk { kind := .other "lexical_declaration", start := 9, stop := 20 } [
        .mk { kind := .variableDeclarator, start := 13, stop := 19 } [
          .mk { kind := .identifier, field := some .name, start := 13, stop := 14 } [],
          .mk { kind := .nonNullExpression, field := some .value, start := 15, stop := 19 } [
            .mk { kind := .parenthesized, start := 15, stop := 18 } [
              .mk { kind := .identifier, start := 16, stop := 17 } []]]]],
      .mk { kind := .identifier, start := 20, stop := 21 } []],
    .mk { kind := .statementBlock, start := 22, stop := 33 } [
      .mk { kind := .other "lexical_declaration", start := 23, stop := 32 } [
        .mk { kind := .variableDeclarator, start := 27, stop := 31 } [
          .mk { kind := .identifier, field := some .name, start := 27, stop := 28 } [],
          .mk { kind := .objectLiteral, field := some .value, start := 29, stop := 31 } []]]]]

def aliasInBlock : Alias aliasedInBlock where
  before := aliasedInBlock.places.take 7
  place := aliasedInBlock.placeAt 7
  after := aliasedInBlock.places.drop 8
  split := places_split_placeAt (by decide)
  isVariable := rfl
  untyped := rfl
  target := aliasedInBlock.placeAt 8
  hasTarget := rfl
  isName := rfl
  value := aliasedInBlock.placeAt 9
  hasValue := rfl
  scope := aliasedInBlock.placeAt 5
  hasScope := rfl

/-- The later declaration of `s` belongs to another block and does not overtake the alias. -/
theorem aliasInBlock_use_possible :
    StandsFor aliasedInBlock.text aliasInBlock.value (aliasedInBlock.placeAt 11) ∧
      (TypeOracle.ofFile aliasedInBlock).couldBe .observable aliasInBlock.value = true ∧
      (∃ b ∈ aliasInBlock.later, b.name = "s" ∧ b.shape = .plain) ∧
      ResolvesTo aliasedInBlock (aliasedInBlock.placeAt 12) aliasInBlock.scope
        aliasInBlock.name ∧
      (TypeOracle.ofFile aliasedInBlock).couldBe .observable (aliasedInBlock.placeAt 12) =
        true := by
  have hvalue : (TypeOracle.ofFile aliasedInBlock).couldBe .observable aliasInBlock.value =
      true := by
    decide
  have huse : ResolvesTo aliasedInBlock (aliasedInBlock.placeAt 12) aliasInBlock.scope
      aliasInBlock.name :=
    ⟨.identifier rfl (by decide), nearestScope_of_splitAt 1 rfl (by decide) (by decide)⟩
  have hfollows : ¬ aliasInBlock.Overtaken .observable := by
    rw [Alias.overtaken_iff]
    decide
  refine ⟨.inside rfl (.inside rfl (.self _)), hvalue, by decide, huse, ?_⟩
  exact ((alias_as_open_as_value_unless_overtaken aliasInBlock .observable hvalue).1 _ huse).mpr
    (Or.inl hfollows)

/-- A variable with a plain value, a function with an alias of it and a subscription to the alias,
and a second declaration of the variable. -/
def redeclaredBelow : SourceFile where
  path := ⟨"test.ts"⟩
  dialect := .typeScript
  text := "var s = \x7b\x7d;\nfunction f() \x7b\n  const t = s;\n  t.subscribe(a, b);\n\x7d\n" ++
    "var s = u;\n"
  tree := .mk { kind := .program, stop := 76 } [
    .mk { kind := .variableDeclaration, stop := 11 } [
      .mk { kind := .other "var", named := false, stop := 3 } [],
      .mk { kind := .variableDeclarator, start := 4, stop := 10 } [
        .mk { kind := .identifier, field := some .name, start := 4, stop := 5 } [],
        .mk { kind := .other "=", named := false, start := 6, stop := 7 } [],
        .mk { kind := .objectLiteral, field := some .value, start := 8, stop := 10 } [
          .mk { kind := .other "\x7b", named := false, start := 8, stop := 9 } [],
          .mk { kind := .other "\x7d", named := false, start := 9, stop := 10 } []]],
      .mk { kind := .other ";", named := false, start := 10, stop := 11 } []],
    .mk { kind := .functionDeclaration, start := 12, stop := 64 } [
      .mk { kind := .function, named := false, start := 12, stop := 20 } [],
      .mk { kind := .identifier, field := some .name, start := 21, stop := 22 } [],
      .mk { kind := .formalParameters, field := some (.other "parameters"), start := 22,
            stop := 24 } [
        .mk { kind := .other "(", named := false, start := 22, stop := 23 } [],
        .mk { kind := .other ")", named := false, start := 23, stop := 24 } []],
      .mk { kind := .statementBlock, field := some (.other "body"), start := 25, stop := 64 } [
        .mk { kind := .other "\x7b", named := false, start := 25, stop := 26 } [],
        .mk { kind := .other "lexical_declaration", start := 29, stop := 41 } [
          .mk { kind := .other "const", field := some .kind, named := false, start := 29,
                stop := 34 } [],
          .mk { kind := .variableDeclarator, start := 35, stop := 40 } [
            .mk { kind := .identifier, field := some .name, start := 35, stop := 36 } [],
            .mk { kind := .other "=", named := false, start := 37, stop := 38 } [],
            .mk { kind := .identifier, field := some .value, start := 39, stop := 40 } []],
          .mk { kind := .other ";", named := false, start := 40, stop := 41 } []],
        subscription 44,
        .mk { kind := .other "\x7d", named := false, start := 63, stop := 64 } []]],
    .mk { kind := .variableDeclaration, start := 65, stop := 75 } [
      .mk { kind := .other "var", named := false, start := 65, stop := 68 } [],
      .mk { kind := .variableDeclarator, start := 69, stop := 74 } [
        .mk { kind := .identifier, field := some .name, start := 69, stop := 70 } [],
        .mk { kind := .other "=", named := false, start := 71, stop := 72 } [],
        .mk { kind := .identifier, field := some .value, start := 73, stop := 74 } []],
      .mk { kind := .other ";", named := false, start := 74, stop := 75 } []]]

def redeclaredBelowAlias : Alias redeclaredBelow where
  before := redeclaredBelow.places.take 20
  place := redeclaredBelow.placeAt 20
  after := redeclaredBelow.places.drop 21
  split := places_split_placeAt (by decide)
  isVariable := rfl
  untyped := rfl
  target := redeclaredBelow.placeAt 21
  hasTarget := rfl
  isName := rfl
  value := redeclaredBelow.placeAt 23
  hasValue := rfl
  scope := redeclaredBelow.placeAt 16
  hasScope := rfl

/-- The value of `t` could be a stream and `t` could not: the second declaration of `s` comes too
late for it. -/
theorem redeclaredBelow_use_ruled_out :
    (TypeOracle.ofFile redeclaredBelow).couldBeObservable redeclaredBelowAlias.value = true ∧
      redeclaredBelowAlias.Overtaken .observable ∧
      ResolvesTo redeclaredBelow (redeclaredBelow.placeAt 28) redeclaredBelowAlias.scope
        redeclaredBelowAlias.name ∧
      (TypeOracle.ofFile redeclaredBelow).couldBeObservable (redeclaredBelow.placeAt 28) =
        false := by
  have hovertaken : redeclaredBelowAlias.Overtaken .observable := by
    rw [Alias.overtaken_iff]
    decide
  refine ⟨by decide, hovertaken, ?_, by decide⟩
  exact ⟨.identifier rfl (by decide), nearestScope_of_splitAt 4 rfl (by decide) (by decide)⟩

end ObserverLint.Oracle
