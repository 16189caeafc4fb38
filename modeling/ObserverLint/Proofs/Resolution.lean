import ObserverLint.Oracle.TypeOracle
import ObserverLint.Proofs.Expressions

namespace ObserverLint

inductive Aspect where
  | observable
  | function
deriving DecidableEq, Repr

namespace Shape

def on (s : Shape) : Aspect → Possibility
  | .observable => s.observable
  | .function => s.function

theorem merge_on (s t : Shape) (aspect : Aspect) :
    (s.merge t).on aspect = (s.on aspect).merge (t.on aspect) := by
  cases aspect <;> rfl

/-- Shapes with the same definite answers have the same open questions as well. -/
theorem eq_of_definite {s t : Shape} (h : ∀ aspect {v : Possibility}, v ≠ .unknown →
    (s.on aspect = v ↔ t.on aspect = v)) : s = t := by
  have hon (aspect : Aspect) : s.on aspect = t.on aspect := by
    by_cases hs : s.on aspect = .unknown
    · by_contra hne
      have ht : t.on aspect ≠ .unknown := fun ht => hne (hs.trans ht.symm)
      exact hne ((h aspect ht).mpr rfl)
    · exact ((h aspect hs).mp rfl).symm
  rcases s with ⟨observable, function⟩
  rcases t with ⟨observable', function'⟩
  exact congrArg₂ Shape.mk (hon .observable) (hon .function)

@[simp] theorem unknown_on (aspect : Aspect) : unknown.on aspect = .unknown := by
  cases aspect <;> rfl

end Shape

namespace TypeOracle

def couldBe (oracle : TypeOracle) : Aspect → Place → Bool
  | .observable => oracle.couldBeObservable
  | .function => oracle.couldBeFunction

theorem couldBe_ofDeclarations (d : Oracle.Declarations) (source : String) (aspect : Aspect)
    (p : Place) :
    (ofDeclarations d source).couldBe aspect p =
      ((Oracle.exprShape d source p).on aspect).couldBe := by
  cases aspect <;> rfl

end TypeOracle

namespace Possibility

@[simp] theorem couldBe_eq_false_iff {p : Possibility} : p.couldBe = false ↔ p = .no := by
  simp [couldBe]

/-- Only two equal answers make a definite one. -/
theorem merge_eq_iff {p q v : Possibility} (hv : v ≠ .unknown) :
    p.merge q = v ↔ p = v ∧ q = v := by
  cases p <;> cases q <;> cases v <;> simp_all [merge]

end Possibility

namespace Oracle

/-- What the places contribute when they are read in this order, each judged by what was collected
before it. -/
def contributionsFrom (source : String) : Declarations → List Place → List Binding
  | _, [] => []
  | d, p :: ps => bindingsAt d source p ++ contributionsFrom source (collectAt source d p) ps

/-- Everything that is declared while a file is read: first its classes, then all other
declarations. -/
def contributions (file : SourceFile) : List Binding :=
  let classes := classDeclarations file.text file.places
  classes.bindings ++ contributionsFrom file.text classes file.places

theorem foldl_collectAt_bindings (source : String) (d : Declarations) (ps : List Place) :
    (ps.foldl (collectAt source) d).bindings = d.bindings ++ contributionsFrom source d ps := by
  induction ps generalizing d with
  | nil => exact (List.append_nil _).symm
  | cons p ps ih =>
    rw [List.foldl_cons, ih, contributionsFrom, ← List.append_assoc]
    rfl

theorem declarations_bindings (file : SourceFile) :
    (declarations file).bindings = contributions file :=
  foldl_collectAt_bindings _ _ _

theorem contributionsFrom_append (source : String) (d : Declarations) (ps qs : List Place) :
    contributionsFrom source d (ps ++ qs) =
      contributionsFrom source d ps ++
        contributionsFrom source (ps.foldl (collectAt source) d) qs := by
  induction ps generalizing d with
  | nil => rfl
  | cons p ps ih =>
    rw [List.cons_append, contributionsFrom, contributionsFrom, ih, List.foldl_cons,
      List.append_assoc]

theorem bindingsAt_subset_contributionsFrom {source : String} {d : Declarations} {ps : List Place}
    {p : Place} (h : p ∈ ps) : ∃ e, bindingsAt e source p ⊆ contributionsFrom source d ps := by
  induction ps generalizing d with
  | nil => cases h
  | cons q qs ih =>
    rw [contributionsFrom]
    rcases List.mem_cons.mp h with rfl | hrest
    · exact ⟨d, List.subset_append_left _ _⟩
    · obtain ⟨e, he⟩ := ih hrest
      exact ⟨e, List.subset_append_of_subset_right _ he⟩

/-- What a place of the file declares is among the contributions of the file. -/
theorem bindingsAt_subset_contributions {file : SourceFile} {p : Place} (h : p ∈ file.places) :
    ∃ d, bindingsAt d file.text p ⊆ contributions file := by
  obtain ⟨d, hd⟩ := bindingsAt_subset_contributionsFrom h
  exact ⟨d, List.subset_append_of_subset_right _ hd⟩

theorem exists_of_mem_contributionsFrom {source : String} {d : Declarations} {ps : List Place}
    {b : Binding} (h : b ∈ contributionsFrom source d ps) :
    ∃ p ∈ ps, ∃ e, b ∈ bindingsAt e source p := by
  induction ps generalizing d with
  | nil => cases h
  | cons p ps ih =>
    rw [contributionsFrom, List.mem_append] at h
    rcases h with hhere | hrest
    · exact ⟨p, List.mem_cons_self, d, hhere⟩
    · obtain ⟨q, hq, hb⟩ := ih hrest
      exact ⟨q, List.mem_cons_of_mem _ hq, hb⟩

def Binding.IsAt (b : Binding) (p : Place) (name : String) : Prop :=
  b.scope = p.address ∧ b.name = name

instance (b : Binding) (p : Place) (name : String) : Decidable (b.IsAt p name) :=
  inferInstanceAs (Decidable (_ ∧ _))

/-- Of the places at and above `u`, `scope` is the nearest with a binding of the name. -/
def NearestScope (bindings : List Binding) (u : Place) (name : String) (scope : Place) : Prop :=
  ∃ nearer outer, u.selfAndAncestors = nearer ++ scope :: outer ∧
    (∀ q ∈ nearer, ∀ b ∈ bindings, ¬ b.IsAt q name) ∧ ∃ b ∈ bindings, b.IsAt scope name

theorem nearestScope_of_splitAt {bindings : List Binding} {u scope : Place} {name : String} (k : Nat)
    (hscope : u.selfAndAncestors[k]? = some scope)
    (hnearer : ∀ q ∈ u.selfAndAncestors.take k, ∀ b ∈ bindings, ¬ b.IsAt q name)
    (hdeclared : ∃ b ∈ bindings, b.IsAt scope name) : NearestScope bindings u name scope := by
  obtain ⟨hlt, rfl⟩ := List.getElem?_eq_some_iff.mp hscope
  refine ⟨u.selfAndAncestors.take k, u.selfAndAncestors.drop (k + 1), ?_, hnearer, hdeclared⟩
  rw [← List.drop_eq_getElem_cons hlt, List.take_append_drop]

section Merging

variable {aspect : Aspect} {v : Possibility} (hv : v ≠ .unknown)

include hv

theorem foldl_merge_on_eq_iff (s : Shape) (ss : List Shape) :
    (ss.foldl Shape.merge s).on aspect = v ↔ s.on aspect = v ∧ ∀ t ∈ ss, t.on aspect = v := by
  induction ss generalizing s with
  | nil => simp
  | cons t ss ih =>
    rw [List.foldl_cons, ih, Shape.merge_on, Possibility.merge_eq_iff hv, List.forall_mem_cons,
      and_assoc]

theorem mergeAll?_on_eq_iff {ss : List Shape} {shape : Shape} (h : mergeAll? ss = some shape) :
    shape.on aspect = v ↔ ∀ t ∈ ss, t.on aspect = v := by
  cases ss with
  | nil => cases h
  | cons s ss =>
    obtain rfl := Option.some.inj h
    rw [foldl_merge_on_eq_iff hv, List.forall_mem_cons]

end Merging

theorem mergeAll?_eq_none_iff {ss : List Shape} : mergeAll? ss = none ↔ ss = [] := by
  cases ss <;> simp [mergeAll?]

/-- Neither the order of declarations nor their number counts. -/
theorem mergeAll?_congr {ss ts : List Shape} (h : ∀ s, s ∈ ss ↔ s ∈ ts) :
    mergeAll? ss = mergeAll? ts := by
  have hnil : ss = [] ↔ ts = [] := by simp only [List.eq_nil_iff_forall_not_mem, h]
  cases hss : mergeAll? ss with
  | none => exact (mergeAll?_eq_none_iff.mpr (hnil.mp (mergeAll?_eq_none_iff.mp hss))).symm
  | some s =>
    cases hts : mergeAll? ts with
    | none =>
      rw [mergeAll?_eq_none_iff.mpr (hnil.mpr (mergeAll?_eq_none_iff.mp hts))] at hss
      cases hss
    | some t =>
      have hsame (aspect : Aspect) {v : Possibility} (hv : v ≠ .unknown) :
          s.on aspect = v ↔ t.on aspect = v := by
        simp only [mergeAll?_on_eq_iff hv hss, mergeAll?_on_eq_iff hv hts, h]
      rw [Shape.eq_of_definite hsame]

namespace Declarations

variable {d : Declarations} {scope : Address} {name : String} {shape : Shape}

theorem mem_shapesIn {t : Shape} :
    t ∈ (d.bindings.filter fun b => b.scope == scope && b.name == name).map Binding.shape ↔
      ∃ b ∈ d.bindings, (b.scope = scope ∧ b.name = name) ∧ b.shape = t := by
  simp [List.mem_filter, and_assoc]

theorem shapeIn?_congr {e : Declarations} {other : Address}
    (h : ∀ t, ⟨scope, name, t⟩ ∈ d.bindings ↔ ⟨other, name, t⟩ ∈ e.bindings) :
    d.shapeIn? scope name = e.shapeIn? other name := by
  have hmem {d : Declarations} {scope : Address} {t : Shape} :
      (∃ b ∈ d.bindings, (b.scope = scope ∧ b.name = name) ∧ b.shape = t) ↔
        ⟨scope, name, t⟩ ∈ d.bindings := by
    constructor
    · rintro ⟨b, hb, ⟨rfl, rfl⟩, rfl⟩
      exact hb
    · intro hb
      exact ⟨_, hb, ⟨rfl, rfl⟩, rfl⟩
  refine mergeAll?_congr fun t => ?_
  rw [mem_shapesIn, mem_shapesIn, hmem, hmem, h]

theorem shapeIn?_eq_none_iff :
    d.shapeIn? scope name = none ↔ ∀ b ∈ d.bindings, ¬ (b.scope = scope ∧ b.name = name) := by
  rw [shapeIn?, mergeAll?_eq_none_iff, List.map_eq_nil_iff, List.filter_eq_nil_iff]
  simp

theorem exists_of_shapeIn? (h : d.shapeIn? scope name = some shape) :
    ∃ b ∈ d.bindings, b.scope = scope ∧ b.name = name := by
  apply Classical.byContradiction
  intro hnone
  have hnot : d.shapeIn? scope name = none :=
    shapeIn?_eq_none_iff.mpr fun b hb hat => hnone ⟨b, hb, hat⟩
  rw [hnot] at h
  cases h

/-- A scope rules a name out if all its declarations of the name do. -/
theorem shapeIn?_on_eq_no_iff {aspect : Aspect} (h : d.shapeIn? scope name = some shape) :
    shape.on aspect = .no ↔
      ∀ b ∈ d.bindings, b.scope = scope ∧ b.name = name → b.shape.on aspect = .no := by
  rw [mergeAll?_on_eq_iff (by decide) h]
  constructor
  · intro hall b hb hat
    exact hall _ (mem_shapesIn.mpr ⟨b, hb, hat, rfl⟩)
  · intro hall t ht
    obtain ⟨b, hb, hat, rfl⟩ := mem_shapesIn.mp ht
    exact hall b hb hat

theorem exists_class_of_derivedIn? {derived : Bool}
    (h : d.derivedIn? scope name = some derived) :
    ∃ c ∈ d.classes, c.scope = scope ∧ c.name = name := by
  unfold derivedIn? at h
  split at h
  · cases h
  · rename_i hfound
    obtain ⟨c, hc⟩ := List.exists_mem_of_ne_nil _ hfound
    obtain ⟨hmem, hat⟩ := List.mem_filter.mp hc
    exact ⟨c, hmem, by simpa using hat⟩

theorem resolve?_eq_some_iff {u : Place} {address : Address} :
    d.resolve? u name = some (address, shape) ↔
      ∃ p, NearestScope d.bindings u name p ∧ p.address = address ∧
        d.shapeIn? p.address name = some shape := by
  rw [resolve?, List.findSome?_eq_some_iff]
  constructor
  · rintro ⟨nearer, p, outer, hsplit, hfound, hnearer⟩
    obtain ⟨found, hshape, heq⟩ := Option.map_eq_some_iff.mp hfound
    cases heq
    refine ⟨p, ⟨nearer, outer, hsplit, ?_, ?_⟩, rfl, hshape⟩
    · intro q hq
      exact shapeIn?_eq_none_iff.mp (Option.map_eq_none_iff.mp (hnearer q hq))
    · exact exists_of_shapeIn? hshape
  · rintro ⟨p, ⟨nearer, outer, hsplit, hnearer, -⟩, rfl, hshape⟩
    refine ⟨nearer, p, outer, hsplit, by simp [hshape], ?_⟩
    intro q hq
    exact Option.map_eq_none_iff.mpr (shapeIn?_eq_none_iff.mpr (hnearer q hq))

theorem resolve?_of_nearestScope {u p : Place} (h : NearestScope d.bindings u name p) :
    ∃ shape, d.resolve? u name = some (p.address, shape) ∧
      d.shapeIn? p.address name = some shape := by
  have ⟨_, _, _, _, b, hb, hat⟩ := h
  cases hshape : d.shapeIn? p.address name with
  | none => exact absurd hat (shapeIn?_eq_none_iff.mp hshape b hb)
  | some shape => exact ⟨shape, resolve?_eq_some_iff.mpr ⟨p, h, rfl, hshape⟩, rfl⟩

theorem lookup_on_eq_no_iff_of_nearestScope {u p : Place} {aspect : Aspect}
    (h : NearestScope d.bindings u name p) :
    (d.lookup u name).on aspect = .no ↔
      ∀ b ∈ d.bindings, b.IsAt p name → b.shape.on aspect = .no := by
  obtain ⟨shape, hresolve, hshape⟩ := resolve?_of_nearestScope h
  rw [lookup, hresolve]
  exact shapeIn?_on_eq_no_iff hshape

/-- A name is ruled out if the nearest scope that declares it has only declarations that do. -/
theorem lookup_on_eq_no_iff {u : Place} {aspect : Aspect} :
    (d.lookup u name).on aspect = .no ↔
      ∃ p, NearestScope d.bindings u name p ∧
        ∀ b ∈ d.bindings, b.IsAt p name → b.shape.on aspect = .no := by
  constructor
  · intro h
    cases hresolve : d.resolve? u name with
    | none =>
      rw [lookup, hresolve, Shape.unknown_on] at h
      cases h
    | some found =>
      obtain ⟨p, hp, -, -⟩ := resolve?_eq_some_iff.mp hresolve
      exact ⟨p, hp, (lookup_on_eq_no_iff_of_nearestScope hp).mp h⟩
  · rintro ⟨p, hp, hall⟩
    exact (lookup_on_eq_no_iff_of_nearestScope hp).mpr hall

end Declarations

theorem NearestScope.of_perm {bs cs : List Binding} {u p : Place} {name : String}
    (hperm : bs.Perm cs) (h : NearestScope bs u name p) : NearestScope cs u name p := by
  obtain ⟨nearer, outer, hsplit, hnearer, b, hb, hat⟩ := h
  exact ⟨nearer, outer, hsplit, fun q hq b hb => hnearer q hq b (hperm.mem_iff.mpr hb), b,
    hperm.mem_iff.mp hb, hat⟩

section Growing

variable {bs cs : List Binding} {u p q : Place} {name : String}

theorem NearestScope.address_eq (hp : NearestScope bs u name p) (hq : NearestScope bs u name q) :
    p.address = q.address := by
  have hresolvesTo {scope : Place} (h : NearestScope bs u name scope) :
      ∃ shape, (⟨[], bs⟩ : Declarations).resolve? u name = some (scope.address, shape) := by
    obtain ⟨shape, hshape, -⟩ :=
      @Declarations.resolve?_of_nearestScope ⟨[], bs⟩ name u scope h
    exact ⟨shape, hshape⟩
  obtain ⟨shape, hshape⟩ := hresolvesTo hp
  obtain ⟨other, hother⟩ := hresolvesTo hq
  rw [hshape] at hother
  exact congrArg Prod.fst (Option.some.inj hother)

/-- A scope that is the nearest among more declarations was the nearest already if it had one. -/
theorem NearestScope.of_subset (hsub : bs ⊆ cs) (h : NearestScope cs u name p)
    (hdeclared : ∃ b ∈ bs, b.IsAt p name) : NearestScope bs u name p := by
  obtain ⟨nearer, outer, hsplit, hnearer, -⟩ := h
  exact ⟨nearer, outer, hsplit, fun q hq b hb => hnearer q hq b (hsub hb), hdeclared⟩

/-- A name that was found stays so when more is declared, though perhaps in a nearer scope. -/
theorem NearestScope.exists_of_subset (hsub : bs ⊆ cs) (h : NearestScope bs u name p) :
    ∃ scope, NearestScope cs u name scope := by
  obtain ⟨nearer, outer, hsplit, -, b, hb, hat⟩ := h
  have hsome : (u.selfAndAncestors.find? fun q => decide (∃ b ∈ cs, b.IsAt q name)).isSome := by
    rw [List.find?_isSome]
    refine ⟨p, ?_, decide_eq_true ⟨b, hsub hb, hat⟩⟩
    rw [hsplit]
    exact List.mem_append_right _ List.mem_cons_self
  obtain ⟨scope, hscope⟩ := Option.isSome_iff_exists.mp hsome
  obtain ⟨hdeclared, nearer, outer, hsplit, hnearer⟩ := List.find?_eq_some_iff_append.mp hscope
  refine ⟨scope, nearer, outer, hsplit, ?_, of_decide_eq_true hdeclared⟩
  intro q hq c hc hat
  have hnone := hnearer q hq
  simp only [Bool.not_eq_true', decide_eq_false_iff_not] at hnone
  exact hnone ⟨c, hc, hat⟩

end Growing

theorem couldBe_identifier_eq_false_iff (d : Declarations) {source : String} {u : Place}
    (hkind : u.kind = .identifier) (htext : u.text source ≠ "undefined") (aspect : Aspect) :
    (TypeOracle.ofDeclarations d source).couldBe aspect u = false ↔
      ∃ p, NearestScope d.bindings u (u.text source) p ∧
        ∀ b ∈ d.bindings, b.IsAt p (u.text source) → b.shape.on aspect = .no := by
  rw [TypeOracle.couldBe_ofDeclarations, Possibility.couldBe_eq_false_iff,
    exprShape_identifier d hkind htext, Declarations.lookup_on_eq_no_iff]

theorem couldBe_identifier_of_perm {d e : Declarations} {source : String} {u : Place}
    (hperm : d.bindings.Perm e.bindings) (hkind : u.kind = .identifier)
    (htext : u.text source ≠ "undefined") (aspect : Aspect) :
    (TypeOracle.ofDeclarations d source).couldBe aspect u =
      (TypeOracle.ofDeclarations e source).couldBe aspect u := by
  rw [Bool.eq_iff_iff, ← not_iff_not, Bool.not_eq_true, Bool.not_eq_true,
    couldBe_identifier_eq_false_iff d hkind htext, couldBe_identifier_eq_false_iff e hkind htext]
  constructor
  · rintro ⟨p, hp, hall⟩
    exact ⟨p, hp.of_perm hperm, fun b hb => hall b (hperm.mem_iff.mpr hb)⟩
  · rintro ⟨p, hp, hall⟩
    exact ⟨p, hp.of_perm hperm.symm, fun b hb => hall b (hperm.mem_iff.mp hb)⟩

/-- An identifier is ruled out exactly if all contributions of the nearest scope that declares it
rule it out, and the order of the contributions plays no part. -/
theorem identifier_answers_by_nearest_scope (file : SourceFile) (u : Place)
    (hkind : u.kind = .identifier) (htext : u.text file.text ≠ "undefined") :
    ((TypeOracle.ofFile file).couldBeObservable u = false ↔
      ∃ scope, NearestScope (contributions file) u (u.text file.text) scope ∧
        ∀ b ∈ contributions file, b.IsAt scope (u.text file.text) → b.shape.observable = .no) ∧
    ((TypeOracle.ofFile file).couldBeFunction u = false ↔
      ∃ scope, NearestScope (contributions file) u (u.text file.text) scope ∧
        ∀ b ∈ contributions file, b.IsAt scope (u.text file.text) → b.shape.function = .no) ∧
    ∀ d : Declarations, d.bindings.Perm (contributions file) →
      (TypeOracle.ofDeclarations d file.text).couldBeObservable u =
        (TypeOracle.ofFile file).couldBeObservable u ∧
      (TypeOracle.ofDeclarations d file.text).couldBeFunction u =
        (TypeOracle.ofFile file).couldBeFunction u := by
  rw [← declarations_bindings]
  refine ⟨?_, ?_, ?_⟩
  · exact couldBe_identifier_eq_false_iff (declarations file) hkind htext .observable
  · exact couldBe_identifier_eq_false_iff (declarations file) hkind htext .function
  · intro d hperm
    exact ⟨couldBe_identifier_of_perm hperm hkind htext .observable,
      couldBe_identifier_of_perm hperm hkind htext .function⟩

/-- `var s={},s=1;{s}` -/
def redeclared : SourceFile where
  path := ⟨"redeclared.ts"⟩
  dialect := .typeScript
  text := "var s=\x7b\x7d,s=1;\x7bs\x7d"
  tree := .mk { kind := .program, stop := 16 } [
    .mk { kind := .variableDeclaration, stop := 13 } [
      .mk { kind := .variableDeclarator, start := 4, stop := 8 } [
        .mk { kind := .identifier, field := some .name, start := 4, stop := 5 } [],
        .mk { kind := .objectLiteral, field := some .value, start := 6, stop := 8 } []],
      .mk { kind := .variableDeclarator, start := 9, stop := 12 } [
        .mk { kind := .identifier, field := some .name, start := 9, stop := 10 } [],
        .mk { kind := .numberLiteral, field := some .value, start := 11, stop := 12 } []]],
    .mk { kind := .statementBlock, start := 13, stop := 16 } [
      .mk { kind := .identifier, start := 14, stop := 15 } []]]

def redeclaredUse : Place := redeclared.places.get ⟨9, by decide⟩

theorem redeclared_ruled_out_by_both :
    redeclaredUse ∈ redeclared.places ∧ redeclaredUse.text redeclared.text = "s" ∧
      (contributions redeclared).length = 2 ∧
      (TypeOracle.ofFile redeclared).couldBeObservable redeclaredUse = false ∧
      ∃ scope, NearestScope (contributions redeclared) redeclaredUse
          (redeclaredUse.text redeclared.text) scope ∧
        ∀ b ∈ contributions redeclared, b.IsAt scope (redeclaredUse.text redeclared.text) →
          b.shape.observable = .no := by
  refine ⟨List.get_mem _ _, by decide, by decide, by decide, ?_⟩
  exact (identifier_answers_by_nearest_scope redeclared redeclaredUse (by decide)
    (by decide)).1.mp (by decide)

/-- The statement `s.subscribe(a, b);`, from the given offset on. -/
def subscription (start : Nat) : Node :=
  .mk { kind := .other "expression_statement", start, stop := start + 18 } [
    .mk { kind := .callExpression, start, stop := start + 17 } [
      .mk { kind := .memberExpression, field := some .function, start, stop := start + 11 } [
        .mk { kind := .identifier, field := some .object, start, stop := start + 1 } [],
        .mk { kind := .other ".", named := false, start := start + 1, stop := start + 2 } [],
        .mk { kind := .other "property_identifier", field := some .property, start := start + 2,
              stop := start + 11 } []],
      .mk { kind := .arguments, field := some .arguments, start := start + 11,
            stop := start + 17 } [
        .mk { kind := .other "(", named := false, start := start + 11, stop := start + 12 } [],
        .mk { kind := .identifier, start := start + 12, stop := start + 13 } [],
        .mk { kind := .other ",", named := false, start := start + 13, stop := start + 14 } [],
        .mk { kind := .identifier, start := start + 15, stop := start + 16 } [],
        .mk { kind := .other ")", named := false, start := start + 16, stop := start + 17 } []]],
    .mk { kind := .other ";", named := false, start := start + 17, stop := start + 18 } []]

end Oracle

end ObserverLint
