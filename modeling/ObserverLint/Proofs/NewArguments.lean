import ObserverLint.Proofs.Casts
import ObserverLint.Proofs.Indifference
import ObserverLint.Proofs.Leniency
import ObserverLint.Proofs.LocalClasses

namespace ObserverLint

/-- What is inside parentheses or under an assertion: the first named child that is no comment. -/
def Place.content? (p : Place) : Option Place := p.namedChildren.find? fun c => c.kind != .comment

def Place.startsWithComment (p : Place) : Bool :=
  p.namedChildren.head?.any fun c => c.kind == .comment

namespace Oracle

open Place

/-- Going in from `p` through parentheses, `satisfies` and `!`, and past comments, leads to `e`. The
list holds what is gone through. -/
inductive Encloses : Place → List Place → Place → Prop
  | bare (e : Place) : Encloses e [] e
  | around {p c e : Place} {through : List Place} : p.kind.isPassing = true →
      p.content? = some c → Encloses c through e → Encloses p (p :: through) e

section Enclosed

variable {d : Declarations} {source : String} {p c e : Place} {through : List Place}

theorem exprShape_comment (h : p.kind = .comment) : exprShape d source p = .unknown := by
  rcases p with ⟨address, ⟨label, ns⟩, above⟩
  have hlabel : label.kind = .comment := h
  simp only [exprShape, exprShapeAt, hlabel]

theorem exprShape_of_startsWithComment (hkind : p.kind.isPassing = true)
    (h : p.startsWithComment = true) : exprShape d source p = .unknown := by
  obtain ⟨c, hc, hcomment⟩ := (Option.any_eq_true _ _).mp h
  rw [exprShape_of_isPassing hkind (by rw [← List.head?_eq_getElem?, hc])]
  exact exprShape_comment (beq_iff_eq.mp hcomment)

theorem head?_of_content? (hc : p.content? = some c) (h : p.startsWithComment = false) :
    p.namedChildren[0]? = some c := by
  rw [content?] at hc
  rw [startsWithComment] at h
  cases hnamed : p.namedChildren with
  | nil => rw [hnamed] at hc; cases hc
  | cons first rest =>
    rw [hnamed, List.head?_cons, Option.any_some, beq_eq_false_iff_ne] at h
    rw [hnamed, List.find?_cons_of_pos (by simpa using h)] at hc
    exact hc

/-- What is enclosed shows, unless a comment comes before it on the way in. -/
theorem Encloses.exprShape_eq (h : Encloses p through e) :
    exprShape d source p =
      if through.any startsWithComment then .unknown else exprShape d source e := by
  induction h with
  | bare => rfl
  | @around p c e through hkind hc _ ih =>
    rw [List.any_cons]
    cases hcomment : p.startsWithComment with
    | true => rw [exprShape_of_startsWithComment hkind hcomment, Bool.true_or, if_pos rfl]
    | false =>
      rw [exprShape_of_isPassing hkind (head?_of_content? hc hcomment), Bool.false_or, ih]

theorem Encloses.kind_eq_or_isPassing (h : Encloses p through e) :
    p.kind = e.kind ∨ p.kind.isPassing = true := by
  cases h with
  | bare => exact Or.inl rfl
  | around hkind _ _ => exact Or.inr hkind

theorem Encloses.within {t : Node} (h : Encloses p through e) (hp : Within (root t) p) :
    Within (root t) e := by
  induction h with
  | bare => exact hp
  | around _ hc _ ih =>
    exact ih (hp.child (List.mem_filter.mp (List.mem_of_find?_eq_some hc)).1)

end Enclosed

def MakesStream (source : String) (p : Place) : Prop :=
  ∃ callee, p.child? .constructor = some callee ∧ lastName (callee.text source) ∈ observableTypes

def MakesPlain (file : SourceFile) (p : Place) : Prop :=
  ∃ name scope, Creates file.text p name ∧ NearestScope (contributions file) p name scope ∧
    PlainClassIn file scope name

theorem newShape_cases (d : Declarations) (source : String) (p : Place) :
    (MakesStream source p ∧ newShape d source p = .ofObservable) ∨
      (¬ MakesStream source p ∧
        (newShape d source p = .plain ∨ newShape d source p = .unknown)) := by
  unfold newShape MakesStream
  split
  · rename_i hnone
    exact Or.inr ⟨by simp [hnone], Or.inr rfl⟩
  · rename_i callee hcallee
    by_cases hlisted : lastName (callee.text source) ∈ observableTypes
    · exact Or.inl ⟨⟨callee, hcallee, hlisted⟩, if_pos hlisted⟩
    · refine Or.inr ⟨by simp [hcallee, hlisted], ?_⟩
      dsimp only
      rw [if_neg hlisted]
      split
      · exact Or.inr rfl
      · split
        · exact Or.inl rfl
        · exact Or.inr rfl

section Objects

variable {file : SourceFile} {p : Place}

theorem makesPlain_iff (hp : Within file.root p) (hkind : p.kind = .newExpression) :
    MakesPlain file p ↔ (TypeOracle.ofFile file).couldBeObservable p = false := by
  constructor
  · rintro ⟨name, scope, hnew, hplain⟩
    exact (hnew.ruled_out_iff hp).mpr ⟨scope, hplain⟩
  · intro hruledOut
    obtain ⟨name, hnew⟩ := creates_of_ruled_out hkind hruledOut
    obtain ⟨scope, hplain⟩ := (hnew.ruled_out_iff hp).mp hruledOut
    exact ⟨name, scope, hnew, hplain⟩

/-- A new object is known not to be a function if it is known for a stream or for a plain object,
and only then. -/
theorem new_function_no_iff (hp : Within file.root p) (hkind : p.kind = .newExpression) :
    (exprShape (declarations file) file.text p).function = .no ↔
      MakesStream file.text p ∨ MakesPlain file p := by
  have hplain : MakesPlain file p ↔
      (exprShape (declarations file) file.text p).observable = .no :=
    (makesPlain_iff hp hkind).trans Possibility.couldBe_eq_false_iff
  rw [hplain, exprShape_newExpression hkind]
  rcases newShape_cases (declarations file) file.text p with
    ⟨hstream, hshape⟩ | ⟨hother, hshape | hshape⟩
  · simp [hshape, hstream, Shape.ofObservable]
  · simp [hshape, Shape.plain]
  · simp [hshape, hother, Shape.unknown]

end Objects

end Oracle

namespace PreferObserver

open Place Oracle
open SourceFile (placeAt_mem)

section Arguments

variable {file : SourceFile} {c f list anchor a e : Place} {through : List Place}

theorem not_isFunction_of_isPassing {kind : Kind} (h : kind.isPassing = true) :
    kind ≠ .arrowFunction ∧ kind ≠ .functionExpression ∧ kind ≠ .function := by
  cases kind <;> simp_all [Kind.isPassing]

/-- An enclosed new object is taken for a callback unless it is known for an object. -/
theorem isCallable_new_iff (he : Within file.root e) (hin : Encloses a through e)
    (hnew : e.kind = .newExpression) :
    isCallable (.ofFile file) a = true ↔
      through.any startsWithComment = true ∨ ¬ (MakesStream file.text e ∨ MakesPlain file e) := by
  have hkind : a.kind ≠ .arrowFunction ∧ a.kind ≠ .functionExpression ∧ a.kind ≠ .function := by
    rcases hin.kind_eq_or_isPassing with hsame | hpassing
    · simp [hsame, hnew]
    · exact not_isFunction_of_isPassing hpassing
  have hanswer : (TypeOracle.ofFile file).couldBeFunction a =
      (exprShape (declarations file) file.text a).function.couldBe := rfl
  rw [isCallable_iff, ← new_function_no_iff he hnew, hanswer, hin.exprShape_eq]
  simp only [hkind.1, hkind.2.1, hkind.2.2, false_or]
  cases through.any startsWithComment with
  | true => simp [Shape.unknown, Possibility.couldBe]
  | false => simp [Possibility.couldBe]

/-- A call with a single argument is reported if single callbacks are forbidden, the receiver could
be a stream and the argument could be a function. -/
theorem exists_mem_reports_iff {policy : Policy} {oracle : TypeOracle} (hc : Within file.root c)
    (hcall : Calls c f list) (hform : Form file c f anchor) (honly : passed list = [a]) :
    (∃ place, (c, place) ∈ reports policy oracle file) ↔
      policy.allowNext = false ∧
        (∀ object property, Accesses f object property → oracle.couldBeObservable object = true) ∧
        isCallable oracle a = true := by
  have hhandlers : PassesHandlers policy oracle list ↔
      policy.allowNext = false ∧ isCallable oracle a = true := by
    rw [PassesHandlers, honly, isCallable_iff]
    simp
  constructor
  · rintro ⟨place, hreport⟩
    obtain ⟨-, f', list', hcall', -, hstream, hpasses⟩ := mem_reports.mp hreport
    obtain ⟨rfl, rfl⟩ := hcall.unique hcall'
    obtain ⟨hallow, hcallable⟩ := hhandlers.mp hpasses
    exact ⟨hallow, hstream, hcallable⟩
  · rintro ⟨hallow, hstream, hcallable⟩
    exact ⟨anchor, mem_reports.mpr
      ⟨hc, f, list, hcall, hform, hstream, hhandlers.mpr ⟨hallow, hcallable⟩⟩⟩

end Arguments

/-- A call of one of the two forms whose only argument is a new object, in any parentheses: it is
never reported where single callbacks are tolerated. Where they are not, it is reported exactly if
the receiver could be a stream and the argument is not known for an object: because a comment comes
before it, or because it is neither named like a well-known stream nor of a class that the file
declares without a heritage. -/
theorem new_argument_reported_iff {file : SourceFile} {c f list anchor a e : Place}
    {through : List Place} (hc : c ∈ file.root.preorder) (hcall : Calls c f list)
    (hform : Form file c f anchor) (honly : passed list = [a]) (hin : Encloses a through e)
    (hnew : e.kind = .newExpression) (settings : Settings) (path : Path) :
    check settings path file = (reports settings.policy (.ofFile file) file).map (fun report =>
      Finding.toViolation settings.severity path file.text ⟨.forbidden, report.2⟩) ∧
    ((∃ place, (c, place) ∈ reports settings.policy (.ofFile file) file) ↔
      settings.allowNext = false ∧
        (∀ object property, Accesses f object property →
          (TypeOracle.ofFile file).couldBeObservable object = true) ∧
        (through.any startsWithComment = true ∨
          ¬ (MakesStream file.text e ∨ MakesPlain file e))) := by
  have hwithin := mem_preorder.mp hc
  have ha : Within file.root a :=
    passed_within (hcall.within hwithin).2 (honly ▸ List.mem_cons_self)
  refine ⟨check_eq_map_reports settings path file, ?_⟩
  rw [exists_mem_reports_iff hwithin hcall hform honly,
    isCallable_new_iff (hin.within ha) hin hnew]
  rfl

/-- `s.pipe(tap((new E)!));class E{}` -/
def newInPipe : SourceFile where
  path := ⟨"new.ts"⟩
  dialect := .typeScript
  text := "s.pipe(tap((new E)!));class E\x7b\x7d"
  tree := .mk { kind := .program, stop := 31 } [
    .mk { kind := .other "expression_statement", stop := 22 } [
      .mk { kind := .callExpression, stop := 21 } [
        .mk { kind := .memberExpression, field := some .function, stop := 6 } [
          .mk { kind := .identifier, field := some .object, stop := 1 } [],
          .mk { kind := .other "property_identifier", field := some .property, start := 2,
                stop := 6 } []],
        .mk { kind := .arguments, field := some .arguments, start := 6, stop := 21 } [
          .mk { kind := .callExpression, start := 7, stop := 20 } [
            .mk { kind := .identifier, field := some .function, start := 7, stop := 10 } [],
            .mk { kind := .arguments, field := some .arguments, start := 10, stop := 20 } [
              .mk { kind := .nonNullExpression, start := 11, stop := 19 } [
                .mk { kind := .parenthesized, start := 11, stop := 18 } [
                  .mk { kind := .newExpression, start := 12, stop := 17 } [
                    .mk { kind := .identifier, field := some .constructor, start := 16,
                          stop := 17 } []]]]]]]]],
    .mk { kind := .classDeclaration, start := 22, stop := 31 } [
      .mk { kind := .typeIdentifier, field := some .name, start := 28, stop := 29 } [],
      .mk { kind := .classBody, field := some (.other "body"), start := 29, stop := 31 } []]]

/-- The class is declared below the call, and without a heritage; so the object is no callback. -/
theorem newInPipe_not_reported :
    Calls (newInPipe.placeAt 7) (newInPipe.placeAt 8) (newInPipe.placeAt 9) ∧
      Form newInPipe (newInPipe.placeAt 7) (newInPipe.placeAt 8) (newInPipe.placeAt 8) ∧
      passed (newInPipe.placeAt 9) = [newInPipe.placeAt 10] ∧
      Encloses (newInPipe.placeAt 10) [newInPipe.placeAt 10, newInPipe.placeAt 11]
        (newInPipe.placeAt 12) ∧
      MakesPlain newInPipe (newInPipe.placeAt 12) ∧
      ¬ ∃ place, (newInPipe.placeAt 7, place) ∈ reports ⟨false⟩ (.ofFile newInPipe) newInPipe := by
  have hcall : Calls (newInPipe.placeAt 7) (newInPipe.placeAt 8) (newInPipe.placeAt 9) :=
    ⟨rfl, rfl, rfl, rfl⟩
  have hpipe : CallsPipe newInPipe.text (newInPipe.placeAt 2) :=
    ⟨newInPipe.placeAt 3, newInPipe.placeAt 6, newInPipe.placeAt 4, newInPipe.placeAt 5,
      ⟨rfl, rfl, rfl, rfl⟩, ⟨rfl, rfl, rfl⟩, by decide⟩
  have hform : Form newInPipe (newInPipe.placeAt 7) (newInPipe.placeAt 8) (newInPipe.placeAt 8) :=
    .tapName rfl (by decide) ⟨newInPipe.placeAt 2, newInPipe.placeAt 6,
      mem_preorder.mp (placeAt_mem (by decide)), hpipe, List.mem_of_getElem? (i := 1) rfl, rfl,
      .direct (List.mem_of_getElem? (i := 0) rfl)⟩
  have hin : Encloses (newInPipe.placeAt 10) [newInPipe.placeAt 10, newInPipe.placeAt 11]
      (newInPipe.placeAt 12) :=
    .around rfl rfl (.around rfl rfl (.bare _))
  have hplain : MakesPlain newInPipe (newInPipe.placeAt 12) :=
    (makesPlain_iff (mem_preorder.mp (placeAt_mem (by decide))) rfl).mpr (by decide)
  have hiff := (new_argument_reported_iff (placeAt_mem (by decide)) hcall hform rfl hin rfl
    { allowNext := false } ⟨"new.ts"⟩).2
  refine ⟨hcall, hform, rfl, hin, hplain, fun hreported => ?_⟩
  rcases (hiff.mp hreported).2.2 with hcomment | hunknown
  · exact absurd hcomment (by decide)
  · exact hunknown (Or.inr hplain)

/-- `s.subscribe(new Foo());` -/
def newForeign : SourceFile where
  path := ⟨"test.ts"⟩
  dialect := .typeScript
  text := "s.subscribe(new Foo());\n"
  tree := .mk { kind := .program, stop := 24 } [
    .mk { kind := .other "expression_statement", stop := 23 } [
      .mk { kind := .callExpression, stop := 22 } [
        .mk { kind := .memberExpression, field := some .function, stop := 11 } [
          .mk { kind := .identifier, field := some .object, stop := 1 } [],
          .mk { kind := .other ".", named := false, start := 1, stop := 2 } [],
          .mk { kind := .other "property_identifier", field := some .property, start := 2,
                stop := 11 } []],
        .mk { kind := .arguments, field := some .arguments, start := 11, stop := 22 } [
          .mk { kind := .other "(", named := false, start := 11, stop := 12 } [],
          .mk { kind := .newExpression, start := 12, stop := 21 } [
            .mk { kind := .other "new", named := false, start := 12, stop := 15 } [],
            .mk { kind := .identifier, field := some .constructor, start := 16, stop := 19 } [],
            .mk { kind := .arguments, field := some .arguments, start := 19, stop := 21 } [
              .mk { kind := .other "(", named := false, start := 19, stop := 20 } [],
              .mk { kind := .other ")", named := false, start := 20, stop := 21 } []]],
          .mk { kind := .other ")", named := false, start := 21, stop := 22 } []]],
      .mk { kind := .other ";", named := false, start := 22, stop := 23 } []]]

/-- A new object of a class that the file does not declare is taken for a callback. -/
theorem newForeign_reported :
    Calls (newForeign.placeAt 2) (newForeign.placeAt 3) (newForeign.placeAt 7) ∧
      Form newForeign (newForeign.placeAt 2) (newForeign.placeAt 3) (newForeign.placeAt 6) ∧
      passed (newForeign.placeAt 7) = [newForeign.placeAt 9] ∧
      (newForeign.placeAt 9).kind = .newExpression ∧
      (∃ place, (newForeign.placeAt 2, place) ∈
        reports ⟨false⟩ (.ofFile newForeign) newForeign) ∧
      (check { allowNext := false } ⟨"test.ts"⟩ newForeign).length = 1 := by
  have hcall : Calls (newForeign.placeAt 2) (newForeign.placeAt 3) (newForeign.placeAt 7) :=
    ⟨rfl, rfl, rfl, rfl⟩
  have haccess : Accesses (newForeign.placeAt 3) (newForeign.placeAt 4) (newForeign.placeAt 6) :=
    ⟨rfl, rfl, rfl⟩
  have hform : Form newForeign (newForeign.placeAt 2) (newForeign.placeAt 3)
      (newForeign.placeAt 6) := .subscribe haccess (by decide)
  refine ⟨hcall, hform, rfl, rfl, ?_, by decide⟩
  refine (exists_mem_reports_iff (mem_preorder.mp (placeAt_mem (by decide))) hcall hform rfl).mpr
    ⟨rfl, ?_, by decide⟩
  intro object property hmember
  obtain rfl := Option.some.inj (haccess.object.symm.trans hmember.object)
  decide

end PreferObserver

end ObserverLint
