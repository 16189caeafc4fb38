import ObserverLint.Proofs.Counterparts
import ObserverLint.Proofs.LocalClasses

namespace ObserverLint.Oracle

open Place
open SourceFile (placeAt_mem)

def objectAssignmentPattern : Kind := .other "object_assignment_pattern"

def computedPropertyName : Kind := .other "computed_property_name"

inductive Evaluated (pattern : Place) : Place → Prop
  /-- in the default value of a part -/
  | default {part value q : Place} : Within pattern part →
      part.kind = .assignmentPattern ∨ part.kind = objectAssignmentPattern →
      part.child? (.other "right") = some value → Within value q → Evaluated pattern q
  /-- in a computed key -/
  | key {key q : Place} : Within pattern key → key.kind = computedPropertyName →
      Within key q → Evaluated pattern q

structure OccursAt (source : String) (pattern : Place) (name : String) (q : Place) : Prop where
  within : Within pattern q
  isName : IsName q.node
  text : q.text source = name

instance (n : Node) : Decidable (IsName n) :=
  inferInstanceAs (Decidable (n.kind = .identifier ∨ n.kind = .shorthandPattern))

theorem OccursAt.within_of_addresses {source : String} {t : Node} {pattern part : Place}
    {name : String} (hpattern : Within (root t) pattern) (hpart : Within (root t) part)
    (h : ∀ q ∈ pattern.preorder, IsName q.node → q.text source = name →
      part.address <:+ q.address) {q : Place} (hq : OccursAt source pattern name q) :
    Within part q :=
  within_of_address_suffix hpart (hpattern.trans hq.within)
    (h q (mem_preorder.mpr hq.within) hq.isName hq.text)

/-- Nothing hides `q` on the way down from the pattern: the way leads through named parts, none of
which is a type, and it does not go on below a name. -/
inductive Reached : Place → Place → Prop
  | self (p : Place) : Reached p p
  | part {p c q : Place} : ¬ IsName p.node → c ∈ p.namedChildren → c.kind ≠ .annotatedType →
      Reached c q → Reached p q

theorem Reached.within {p q : Place} (h : Reached p q) : Within p q := by
  induction h with
  | self => exact .refl
  | part _ hc _ _ ih => exact (Within.refl.child (List.mem_filter.mp hc).1).trans ih

section Patterns

variable {source : String} {p scope pattern : Place} {name : String} {shape : Shape}

theorem patternNames_of_parts (h : ¬ IsName p.node) :
    patternNames source shape p.node =
      (p.namedChildren.filter fun c => c.kind != .annotatedType).flatMap
        fun c => patternNames source .unknown c.node := by
  rw [patternNames_of_not_isName h, partNames_eq_flatMap, ← map_node_children, List.filter_map,
    List.flatMap_map, namedChildren, List.filter_filter]
  congr 2
  funext c
  exact Bool.and_comm _ _

/-- The names of a pattern are those that occur in its reach. -/
theorem exists_mem_patternNames_iff :
    (∃ part, (name, part) ∈ patternNames source shape p.node) ↔
      ∃ q, Reached p q ∧ OccursAt source p name q := by
  induction p using Place.induction_children generalizing shape with
  | step p ih =>
    by_cases hname : IsName p.node
    · simp only [patternNames_of_isName hname, List.mem_singleton, Prod.mk.injEq]
      constructor
      · rintro ⟨-, rfl, -⟩
        exact ⟨p, .self p, .refl, hname, rfl⟩
      · rintro ⟨q, hq, hoccurs⟩
        cases hq with
        | self => exact ⟨shape, hoccurs.text.symm, rfl⟩
        | part hnot => exact absurd hname hnot
    · -- Each part goes on as a pattern of its own, whatever role it plays in the whole.
      simp only [patternNames_of_parts hname, List.mem_flatMap, List.mem_filter, bne_iff_ne]
      constructor
      · rintro ⟨part, c, ⟨hc, htype⟩, hpart⟩
        obtain ⟨q, hq, hoccurs⟩ := (ih c (List.mem_filter.mp hc).1).mp ⟨part, hpart⟩
        have hreached := Reached.part hname hc htype hq
        exact ⟨q, hreached, hreached.within, hoccurs.isName, hoccurs.text⟩
      · rintro ⟨q, hq, hoccurs⟩
        cases hq with
        | self => exact absurd hoccurs.isName hname
        | @part _ c _ _ hc htype hq =>
          obtain ⟨part, hpart⟩ := (ih c (List.mem_filter.mp hc).1).mpr
            ⟨q, hq, hq.within, hoccurs.isName, hoccurs.text⟩
          exact ⟨part, c, ⟨hc, htype⟩, hpart⟩

def DeclaredBy (source : String) (scope pattern : Place) (name : String) : Prop :=
  ∃ b ∈ bindPattern source scope pattern .unknown, b.name = name

instance : Decidable (DeclaredBy source scope pattern name) :=
  inferInstanceAs (Decidable (∃ b ∈ bindPattern source scope pattern .unknown, b.name = name))

theorem declaredBy_iff_reached :
    DeclaredBy source scope pattern name ↔
      ∃ q, Reached pattern q ∧ OccursAt source pattern name q := by
  rw [← @exists_mem_patternNames_iff source pattern name .unknown]
  constructor
  · rintro ⟨b, hb, rfl⟩
    obtain ⟨⟨name, part⟩, hpart, rfl⟩ := List.mem_map.mp hb
    exact ⟨part, hpart⟩
  · rintro ⟨part, hpart⟩
    exact ⟨_, mem_bindPattern hpart, rfl⟩

/-- A pattern leaves all names that it declares open. -/
theorem DeclaredBy.open_mem (h : DeclaredBy source scope pattern name) :
    ⟨scope.address, name, .unknown⟩ ∈ bindPattern source scope pattern .unknown := by
  obtain ⟨b, hb, rfl⟩ := h
  obtain ⟨⟨name, part⟩, hpart, rfl⟩ := List.mem_map.mp hb
  obtain rfl := or_self_iff.mp (shape_of_mem_patternNames _ hpart)
  exact mem_bindPattern hpart

theorem bindPattern_of_not_isName (h : ¬ IsName pattern.node) :
    bindPattern source scope pattern shape = bindPattern source scope pattern .unknown := by
  rw [bindPattern, bindPattern, patternNames_of_not_isName h, patternNames_of_not_isName h]

end Patterns

namespace BindsPattern

variable {source : String} {p scope pattern : Place}

theorem scope_within {t : Node} (h : BindsPattern source p scope pattern)
    (hp : Within (root t) p) : Within (root t) scope := by
  rcases h.scope_eq with rfl | ⟨_, hscope⟩
  · exact hp
  · exact within_of_declaringScope?_eq_some hp hscope

theorem bindPattern_infix_contributions {file : SourceFile}
    (h : BindsPattern file.text p scope pattern) (hnot : ¬ IsName pattern.node)
    (hp : p ∈ file.root.preorder) :
    bindPattern file.text scope pattern .unknown <:+: contributions file := by
  have hplace : p ∈ file.places := SourceFile.mem_places.mpr (mem_preorder.mp hp)
  obtain ⟨before, after, hsplit⟩ := List.append_of_mem hplace
  have hinfix := h.infix_bindingsAt (known file before)
  -- Nothing is known about the parts, whatever is known about the value.
  rw [bindPattern_of_not_isName hnot] at hinfix
  rw [contributions_eq hsplit, ← List.append_assoc]
  exact hinfix.trans (List.infix_append _ _ _)

end BindsPattern

/-- More declarations change no answer about an identifier unless the scope that decides then has
one of them. -/
theorem couldBe_identifier_of_subset {d e : Declarations} {source : String} {u : Place}
    (hsub : d.bindings ⊆ e.bindings) (hkind : u.kind = .identifier)
    (htext : u.text source ≠ "undefined")
    (hold : ∀ scope, NearestScope e.bindings u (u.text source) scope →
      ∀ b ∈ e.bindings, b.IsAt scope (u.text source) → b ∈ d.bindings) (aspect : Aspect) :
    (TypeOracle.ofDeclarations d source).couldBe aspect u =
      (TypeOracle.ofDeclarations e source).couldBe aspect u := by
  have hnearest {scope : Place} (h : NearestScope e.bindings u (u.text source) scope) :
      NearestScope d.bindings u (u.text source) scope := by
    have ⟨_, _, _, _, b, hb, hat⟩ := h
    exact h.of_subset hsub ⟨b, hold scope h b hb hat, hat⟩
  rw [Bool.eq_iff_iff, ← not_iff_not, Bool.not_eq_true, Bool.not_eq_true,
    couldBe_identifier_eq_false_iff d hkind htext, couldBe_identifier_eq_false_iff e hkind htext]
  constructor
  · rintro ⟨p, hp, hall⟩
    obtain ⟨scope, hscope⟩ := hp.exists_of_subset hsub
    have haddress := (hnearest hscope).address_eq hp
    refine ⟨scope, hscope, ?_⟩
    intro b hb hat
    exact hall b (hold scope hscope b hb hat) ⟨hat.1.trans haddress, hat.2⟩
  · rintro ⟨scope, hscope, hall⟩
    exact ⟨scope, hnearest hscope, fun b hb => hall b (hsub hb)⟩

/-- The pattern changes the answer about a use exactly if it declares the name in the scope that
decides about the use, while all other declarations rule the name out. -/
theorem BindsPattern.couldBe_ne_iff {file : SourceFile} {p scope pattern u : Place}
    {before after : List Binding} {others : Declarations}
    (hbinds : BindsPattern file.text p scope pattern) (hp : p ∈ file.root.preorder)
    (hsplit : contributions file =
      before ++ bindPattern file.text scope pattern .unknown ++ after)
    (hothers : others.bindings = before ++ after) (hu : u ∈ file.root.preorder)
    (hkind : u.kind = .identifier) (htext : u.text file.text ≠ "undefined") (aspect : Aspect) :
    (TypeOracle.ofFile file).couldBe aspect u ≠
        (TypeOracle.ofDeclarations others file.text).couldBe aspect u ↔
      DeclaredBy file.text scope pattern (u.text file.text) ∧
        NearestScope (contributions file) u (u.text file.text) scope ∧
        (TypeOracle.ofDeclarations others file.text).couldBe aspect u = false := by
  rw [← declarations_bindings] at hsplit ⊢
  have hmem {b : Binding} : b ∈ (declarations file).bindings ↔
      b ∈ others.bindings ∨ b ∈ bindPattern file.text scope pattern .unknown := by
    rw [hsplit, hothers]
    simp only [List.mem_append]
    tauto
  by_cases hdecides : DeclaredBy file.text scope pattern (u.text file.text) ∧
      NearestScope (declarations file).bindings u (u.text file.text) scope
  · obtain ⟨hdeclared, hnearest⟩ := hdecides
    have hopen : (TypeOracle.ofFile file).couldBe aspect u = true :=
      couldBe_of_unknown_binding hkind htext hnearest (hmem.mpr (Or.inr hdeclared.open_mem)) aspect
    rw [hopen, ne_comm, ne_eq, Bool.not_eq_true]
    exact ⟨fun hfalse => ⟨hdeclared, hnearest, hfalse⟩, fun h => h.2.2⟩
  · have hsame : (TypeOracle.ofDeclarations others file.text).couldBe aspect u =
        (TypeOracle.ofFile file).couldBe aspect u := by
      refine couldBe_identifier_of_subset (fun b hb => hmem.mpr (Or.inl hb)) hkind htext ?_ aspect
      -- A declaration of the pattern cannot be where the decision falls.
      intro s hs b hb hat
      refine (hmem.mp hb).resolve_right fun hpattern => hdecides ⟨⟨b, hpattern, hat.2⟩, ?_⟩
      obtain rfl := eq_of_address_eq (hs.within (mem_preorder.mp hu))
        (hbinds.scope_within (mem_preorder.mp hp))
        (hat.1.symm.trans (scope_of_mem_bindPattern hpattern))
      exact hs
    exact ⟨fun hne => absurd hsame.symm hne, fun h => absurd ⟨h.1, h.2.1⟩ hdecides⟩

/-- A name that occurs in a destructured pattern only inside default values and computed keys is
declared by the pattern exactly if some occurrence is not hidden by a type. The answer about a use
of the name then differs from the one that the other declarations give exactly if the scope of the
pattern decides about the use and the other declarations rule it out. -/
theorem evaluated_name_declared_iff_reached {file : SourceFile} {p scope pattern : Place}
    {name : String} (hp : p ∈ file.root.preorder) (hbinds : BindsPattern file.text p scope pattern)
    (hnot : ¬ IsName pattern.node)
    (honly : ∀ q, OccursAt file.text pattern name q → Evaluated pattern q) :
    (DeclaredBy file.text scope pattern name ↔
      ∃ q, OccursAt file.text pattern name q ∧ Evaluated pattern q ∧ Reached pattern q) ∧
    ∃ before after,
      contributions file = before ++ bindPattern file.text scope pattern .unknown ++ after ∧
      ∀ others : Declarations, others.bindings = before ++ after →
        ∀ u ∈ file.root.preorder, u.kind = .identifier → u.text file.text = name →
          name ≠ "undefined" → ∀ aspect,
            ((TypeOracle.ofFile file).couldBe aspect u ≠
                (TypeOracle.ofDeclarations others file.text).couldBe aspect u ↔
              DeclaredBy file.text scope pattern name ∧
                NearestScope (contributions file) u name scope ∧
                (TypeOracle.ofDeclarations others file.text).couldBe aspect u = false) := by
  constructor
  · rw [declaredBy_iff_reached]
    constructor
    · rintro ⟨q, hreached, hoccurs⟩
      exact ⟨q, hoccurs, honly q hoccurs, hreached⟩
    · rintro ⟨q, hoccurs, -, hreached⟩
      exact ⟨q, hreached, hoccurs⟩
  · obtain ⟨before, after, hsplit⟩ := hbinds.bindPattern_infix_contributions hnot hp
    refine ⟨before, after, hsplit.symm, ?_⟩
    rintro others hothers u hu hkind rfl htext aspect
    exact hbinds.couldBe_ne_iff hp hsplit.symm hothers hu hkind htext aspect

/-- `const s={};{const{q=(y:typeof s)=>y}=x;s}` -/
def typedDefault : SourceFile where
  path := ⟨"default.ts"⟩
  dialect := .typeScript
  text := "const s=\x7b\x7d;\x7bconst\x7bq=(y:typeof s)=>y\x7d=x;s\x7d"
  tree := .mk { kind := .program, stop := 41 } [
    .mk { kind := .other "lexical_declaration", stop := 11 } [
      .mk { kind := .variableDeclarator, start := 6, stop := 10 } [
        .mk { kind := .identifier, field := some .name, start := 6, stop := 7 } [],
        .mk { kind := .objectLiteral, field := some .value, start := 8, stop := 10 } []]],
    .mk { kind := .statementBlock, start := 11, stop := 41 } [
      .mk { kind := .other "lexical_declaration", start := 12, stop := 39 } [
        .mk { kind := .variableDeclarator, start := 17, stop := 38 } [
          .mk { kind := .objectPattern, field := some .name, start := 17, stop := 36 } [
            .mk { kind := objectAssignmentPattern, start := 18, stop := 35 } [
              .mk { kind := .shorthandPattern, field := some .left, start := 18, stop := 19 } [],
              .mk { kind := .arrowFunction, field := some (.other "right"), start := 20,
                    stop := 35 } [
                .mk { kind := .formalParameters, start := 20, stop := 32 } [
                  .mk { kind := .requiredParameter, start := 21, stop := 31 } [
                    .mk { kind := .identifier, field := some .pattern, start := 21,
                          stop := 22 } [],
                    .mk { kind := .annotatedType, field := some .type, start := 22,
                          stop := 31 } [
                      .mk { kind := .other "type_query", start := 23, stop := 31 } [
                        .mk { kind := .identifier, start := 30, stop := 31 } []]]]],
                .mk { kind := .identifier, field := some (.other "body"), start := 34,
                      stop := 35 } []]]],
          .mk { kind := .identifier, field := some .value, start := 37, stop := 38 } []]],
      .mk { kind := .identifier, start := 39, stop := 40 } []]]

/-- The pattern hides its use of `s` in a type, so the plain object decides about the last one. -/
theorem typedDefault_hides_use :
    BindsPattern typedDefault.text (typedDefault.placeAt 7) (typedDefault.placeAt 5)
        (typedDefault.placeAt 8) ∧
      (∀ q, OccursAt typedDefault.text (typedDefault.placeAt 8) "s" q →
        Evaluated (typedDefault.placeAt 8) q ∧ ¬ Reached (typedDefault.placeAt 8) q) ∧
      (∃ q, OccursAt typedDefault.text (typedDefault.placeAt 8) "s" q) ∧
      (TypeOracle.ofFile typedDefault).couldBe .observable (typedDefault.placeAt 20) = false ∧
      ∃ before after, contributions typedDefault = before ++ bindPattern typedDefault.text
          (typedDefault.placeAt 5) (typedDefault.placeAt 8) .unknown ++ after ∧
        (TypeOracle.ofFile typedDefault).couldBe .observable (typedDefault.placeAt 20) =
          (TypeOracle.ofDeclarations ⟨[], before ++ after⟩ typedDefault.text).couldBe .observable
            (typedDefault.placeAt 20) := by
  have hpattern : Within typedDefault.root (typedDefault.placeAt 8) :=
    mem_preorder.mp (placeAt_mem (by decide))
  have hvalue : Within typedDefault.root (typedDefault.placeAt 11) :=
    mem_preorder.mp (placeAt_mem (by decide))
  have hbinds : BindsPattern typedDefault.text (typedDefault.placeAt 7) (typedDefault.placeAt 5)
      (typedDefault.placeAt 8) :=
    .declarator rfl rfl rfl
  have honly (q : Place) (hq : OccursAt typedDefault.text (typedDefault.placeAt 8) "s" q) :
      Evaluated (typedDefault.placeAt 8) q :=
    @Evaluated.default _ (typedDefault.placeAt 9) _ _ (Within.refl.child List.mem_cons_self)
      (Or.inr rfl) rfl (hq.within_of_addresses hpattern hvalue (by decide))
  have hundeclared : ¬ DeclaredBy typedDefault.text (typedDefault.placeAt 5)
      (typedDefault.placeAt 8) "s" := by
    decide
  obtain ⟨hdeclared, before, after, hsplit, hanswers⟩ := evaluated_name_declared_iff_reached
    (placeAt_mem (by decide)) hbinds (by decide) honly
  refine ⟨hbinds, ?_, ?_, by decide +kernel, before, after, hsplit, ?_⟩
  · intro q hq
    exact ⟨honly q hq, fun hreached => hundeclared (hdeclared.mpr ⟨q, hq, honly q hq, hreached⟩)⟩
  · exact ⟨typedDefault.placeAt 17, within_of_address_suffix hpattern
      (mem_preorder.mp (placeAt_mem (by decide))) (by decide), Or.inl rfl, by decide⟩
  · have hchanged := hanswers ⟨[], before ++ after⟩ rfl (typedDefault.placeAt 20)
      (placeAt_mem (by decide)) rfl (by decide) (by decide) .observable
    exact not_ne_iff.mp fun hne => hundeclared (hchanged.mp hne).1

/-- `const s = {};` and a block that takes a part of `x` by the key `s` before it uses `s`. -/
def computedKey : SourceFile where
  path := ⟨"test.ts"⟩
  dialect := .typeScript
  text := "const s = \x7b\x7d;\n\x7b const \x7b [s]: q \x7d = x; s.subscribe(a, b); \x7d\n"
  tree := .mk { kind := .program, stop := 59 } [
    .mk { kind := .other "lexical_declaration", stop := 13 } [
      .mk { kind := .other "const", field := some .kind, named := false, stop := 5 } [],
      .mk { kind := .variableDeclarator, start := 6, stop := 12 } [
        .mk { kind := .identifier, field := some .name, start := 6, stop := 7 } [],
        .mk { kind := .other "=", named := false, start := 8, stop := 9 } [],
        .mk { kind := .objectLiteral, field := some .value, start := 10, stop := 12 } [
          .mk { kind := .other "\x7b", named := false, start := 10, stop := 11 } [],
          .mk { kind := .other "\x7d", named := false, start := 11, stop := 12 } []]],
      .mk { kind := .other ";", named := false, start := 12, stop := 13 } []],
    .mk { kind := .statementBlock, start := 14, stop := 58 } [
      .mk { kind := .other "\x7b", named := false, start := 14, stop := 15 } [],
      .mk { kind := .other "lexical_declaration", start := 16, stop := 37 } [
        .mk { kind := .other "const", field := some .kind, named := false, start := 16,
              stop := 21 } [],
        .mk { kind := .variableDeclarator, start := 22, stop := 36 } [
          .mk { kind := .objectPattern, field := some .name, start := 22, stop := 32 } [
            .mk { kind := .other "\x7b", named := false, start := 22, stop := 23 } [],
            .mk { kind := .other "pair_pattern", start := 24, stop := 30 } [
              .mk { kind := computedPropertyName, field := some (.other "key"), start := 24,
                    stop := 27 } [
                .mk { kind := .other "[", named := false, start := 24, stop := 25 } [],
                .mk { kind := .identifier, start := 25, stop := 26 } [],
                .mk { kind := .other "]", named := false, start := 26, stop := 27 } []],
              .mk { kind := .other ":", named := false, start := 27, stop := 28 } [],
              .mk { kind := .identifier, field := some .value, start := 29, stop := 30 } []],
            .mk { kind := .other "\x7d", named := false, start := 31, stop := 32 } []],
          .mk { kind := .other "=", named := false, start := 33, stop := 34 } [],
          .mk { kind := .identifier, field := some .value, start := 35, stop := 36 } []],
        .mk { kind := .other ";", named := false, start := 36, stop := 37 } []],
      subscription 38,
      .mk { kind := .other "\x7d", named := false, start := 57, stop := 58 } []]]

/-- The pattern only uses `s` as a key, and still it opens what the plain object rules out. -/
theorem computedKey_opens_use :
    BindsPattern computedKey.text (computedKey.placeAt 14) (computedKey.placeAt 10)
        (computedKey.placeAt 15) ∧
      (∀ q, OccursAt computedKey.text (computedKey.placeAt 15) "s" q →
        Evaluated (computedKey.placeAt 15) q) ∧
      bindPattern computedKey.text (computedKey.placeAt 10) (computedKey.placeAt 15) .unknown =
        [⟨[1], "s", .unknown⟩, ⟨[1], "q", .unknown⟩] ∧
      contributions computedKey =
        [⟨[], "s", .plain⟩, ⟨[1], "s", .unknown⟩, ⟨[1], "q", .unknown⟩] ∧
      (TypeOracle.ofDeclarations ⟨[], [⟨[], "s", .plain⟩]⟩ computedKey.text).couldBeObservable
        (computedKey.placeAt 31) = false ∧
      (TypeOracle.ofFile computedKey).couldBeObservable (computedKey.placeAt 31) = true := by
  have hpattern : Within computedKey.root (computedKey.placeAt 15) :=
    mem_preorder.mp (placeAt_mem (by decide))
  have hkey : Within computedKey.root (computedKey.placeAt 18) :=
    mem_preorder.mp (placeAt_mem (by decide))
  refine ⟨.declarator rfl rfl rfl, ?_, by decide, by decide, by decide, by decide⟩
  intro q hq
  exact .key (within_of_address_suffix hpattern hkey (by decide)) rfl
    (hq.within_of_addresses hpattern hkey (by decide))

end ObserverLint.Oracle
