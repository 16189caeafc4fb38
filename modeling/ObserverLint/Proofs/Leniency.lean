import ObserverLint.Proofs.Offences
import ObserverLint.Proofs.Resolution

namespace ObserverLint.PreferObserver

open Place

/-- Whatever is possible at a place of the file in the eyes of `oracle` is possible in the eyes of
`guess`. -/
structure KnowsMore (file : SourceFile) (oracle guess : TypeOracle) : Prop where
  observable : ∀ p, Within file.root p → oracle.couldBeObservable p = true →
    guess.couldBeObservable p = true
  function : ∀ p, Within file.root p → oracle.couldBeFunction p = true →
    guess.couldBeFunction p = true

def Policy.LaxerThan (policy strict : Policy) : Prop :=
  strict.allowNext = true → policy.allowNext = true

/-- The call `c` is let off: its receiver cannot be a stream, or its only argument is tolerated or
cannot be a function. -/
def Acquitted (policy : Policy) (oracle : TypeOracle) (c : Place) : Prop :=
  ∃ f list, Calls c f list ∧
    ((∃ object property, Accesses f object property ∧
        oracle.couldBeObservable object = false) ∨
      ∃ only, passed list = [only] ∧
        (policy.allowNext = true ∨ isCallable oracle only = false))

section Laxer

variable {file : SourceFile} {oracle guess : TypeOracle} {policy strict : Policy}
  {c anchor : Place}

theorem Calls.within {f list : Place} (h : Calls c f list) (hc : Within file.root c) :
    Within file.root f ∧ Within file.root list :=
  ⟨hc.child (child?_mem h.callee), hc.child (child?_mem h.arguments)⟩

theorem passed_within {list a : Place} (hlist : Within file.root list) (ha : a ∈ passed list) :
    Within file.root a :=
  hlist.child (List.mem_filter.mp ha).1

theorem PassesHandlers.mono {list : Place} (hknows : KnowsMore file oracle guess)
    (hlax : policy.LaxerThan strict) (hlist : Within file.root list)
    (h : PassesHandlers policy oracle list) : PassesHandlers strict guess list := by
  rcases h with htwo | ⟨hallow, a, ha, hcallable⟩
  · exact Or.inl htwo
  · have hstrict : strict.allowNext = false := by
      rw [Bool.eq_false_iff]
      intro htrue
      rw [hlax htrue] at hallow
      cases hallow
    have hin := passed_within hlist (ha ▸ List.mem_cons_self)
    refine Or.inr ⟨hstrict, a, ha, ?_⟩
    exact hcallable.imp_right (Or.imp_right (Or.imp_right (hknows.function a hin)))

theorem Offence.mono (hknows : KnowsMore file oracle guess) (hlax : policy.LaxerThan strict)
    (hc : Within file.root c) (h : Offence policy oracle file c anchor) :
    Offence strict guess file c anchor := by
  obtain ⟨f, list, hcall, hform, hstream, hhandlers⟩ := h
  obtain ⟨hf, hlist⟩ := hcall.within hc
  refine ⟨f, list, hcall, hform, ?_, hhandlers.mono hknows hlax hlist⟩
  intro object property haccess
  exact hknows.observable object (hf.child (child?_mem haccess.object))
    (hstream object property haccess)

theorem Offence.not_acquitted (h : Offence policy oracle file c anchor) :
    ¬ Acquitted policy oracle c := by
  obtain ⟨f, list, hcall, -, hstream, hhandlers⟩ := h
  rintro ⟨f', list', hcall', hreason⟩
  obtain ⟨rfl, rfl⟩ := hcall.unique hcall'
  rcases hreason with ⟨object, property, haccess, hruledOut⟩ | ⟨only, honly, hreason⟩
  · rw [hstream object property haccess] at hruledOut
    cases hruledOut
  · rcases hhandlers with htwo | ⟨hallow, a, ha, hcallable⟩
    · rw [honly, List.length_singleton] at htwo
      omega
    · obtain rfl : only = a := List.singleton_inj.mp (honly.symm.trans ha)
      rcases hreason with htolerated | hruledOut
      · rw [hallow] at htolerated
        cases htolerated
      · rw [isCallable_iff.mpr hcallable] at hruledOut
        cases hruledOut

theorem Offence.of_not_acquitted (h : Offence strict guess file c anchor)
    (hnot : ¬ Acquitted policy oracle c) : Offence policy oracle file c anchor := by
  obtain ⟨f, list, hcall, hform, -, hhandlers⟩ := h
  refine ⟨f, list, hcall, hform, ?_, ?_⟩
  · intro object property haccess
    rw [← Bool.not_eq_false]
    intro hruledOut
    exact hnot ⟨f, list, hcall, Or.inl ⟨object, property, haccess, hruledOut⟩⟩
  · rcases hhandlers with htwo | ⟨-, a, ha, -⟩
    · exact Or.inl htwo
    · have hcalls (hreason : policy.allowNext = true ∨ isCallable oracle a = false) : False :=
        hnot ⟨f, list, hcall, Or.inr ⟨a, ha, hreason⟩⟩
      refine Or.inr ⟨?_, a, ha, ?_⟩
      · rw [Bool.eq_false_iff]
        exact fun htolerated => hcalls (Or.inl htolerated)
      · rw [← isCallable_iff, ← Bool.not_eq_false]
        exact fun hruledOut => hcalls (Or.inr hruledOut)

theorem filterMap_sublist {α β : Type} {f g : α → Option β} {xs : List α}
    (h : ∀ x ∈ xs, ∀ y, f x = some y → g x = some y) :
    (xs.filterMap f).Sublist (xs.filterMap g) := by
  induction xs with
  | nil => exact List.Sublist.slnil
  | cons x xs ih =>
    rw [List.forall_mem_cons] at h
    cases hf : f x with
    | some y =>
      rw [List.filterMap_cons_some hf, List.filterMap_cons_some (h.1 y hf)]
      exact (ih h.2).cons_cons y
    | none =>
      rw [List.filterMap_cons_none hf]
      cases hg : g x with
      | none =>
        rw [List.filterMap_cons_none hg]
        exact ih h.2
      | some y =>
        rw [List.filterMap_cons_some hg]
        exact (ih h.2).cons y

theorem reports_mono (hknows : KnowsMore file oracle guess) (hlax : policy.LaxerThan strict) :
    (reports policy oracle file).Sublist (reports strict guess file) := by
  refine filterMap_sublist ?_
  intro c hc report hreport
  have hin : Within file.root c := SourceFile.mem_places.mp (List.mem_filter.mp hc).1
  obtain ⟨finding, hfinding, rfl⟩ := Option.map_eq_some_iff.mp hreport
  have hoffence := (findingAt?_eq_some_iff hin).mp hfinding
  rw [(findingAt?_eq_some_iff hin).mpr (hoffence.mono hknows hlax hin), Option.map_some]

theorem mem_reports_iff_not_acquitted (hknows : KnowsMore file oracle guess)
    (hlax : policy.LaxerThan strict) :
    (c, anchor) ∈ reports policy oracle file ↔
      (c, anchor) ∈ reports strict guess file ∧ ¬ Acquitted policy oracle c := by
  rw [mem_reports, mem_reports]
  constructor
  · intro h
    exact ⟨⟨h.1, h.2.mono hknows hlax h.1⟩, h.2.not_acquitted⟩
  · intro h
    exact ⟨h.1.1, h.1.2.of_not_acquitted h.2⟩

theorem checkWith_mono (hknows : KnowsMore file oracle guess) (hlax : policy.LaxerThan strict)
    (severity : Severity) (path : Path) :
    (checkWith ⟨policy.allowNext, severity⟩ oracle path file).Sublist
      (checkWith ⟨strict.allowNext, severity⟩ guess path file) := by
  rw [checkWith, checkWith, findings_eq_map_reports, findings_eq_map_reports]
  exact ((reports_mono hknows hlax).map _).map _

end Laxer

/-- A laxer policy and a better oracle report fewer of the same violations in the same order: they
leave out exactly the calls that they let off. In particular the policy that tolerates single
callbacks reports no more than the one that does not, and no oracle reports more than the one that
knows nothing. -/
theorem laxer_reports_sublist (file : SourceFile) (path : Path) :
    (∀ policy strict oracle guess, policy.LaxerThan strict → KnowsMore file oracle guess →
      (reports policy oracle file).Sublist (reports strict guess file) ∧
      (∀ c anchor, (c, anchor) ∈ reports policy oracle file ↔
        (c, anchor) ∈ reports strict guess file ∧ ¬ Acquitted policy oracle c) ∧
      ∀ severity, (checkWith ⟨policy.allowNext, severity⟩ oracle path file).Sublist
        (checkWith ⟨strict.allowNext, severity⟩ guess path file)) ∧
    (∀ severity oracle, (checkWith ⟨true, severity⟩ oracle path file).Sublist
      (checkWith ⟨false, severity⟩ oracle path file)) ∧
    (∀ settings oracle, (checkWith settings oracle path file).Sublist
      (checkWith settings .noTypeInfo path file)) := by
  have hsame (oracle : TypeOracle) : KnowsMore file oracle oracle :=
    ⟨fun _ _ h => h, fun _ _ h => h⟩
  refine ⟨?_, ?_, ?_⟩
  · intro policy strict oracle guess hlax hknows
    refine ⟨reports_mono hknows hlax, ?_, ?_⟩
    · intro c anchor
      exact mem_reports_iff_not_acquitted hknows hlax
    · intro severity
      exact checkWith_mono hknows hlax severity path
  · intro severity oracle
    have hlax : Policy.LaxerThan ⟨true⟩ ⟨false⟩ := fun _ => rfl
    exact checkWith_mono (hsame oracle) hlax severity path
  · intro settings oracle
    have hlax : settings.policy.LaxerThan settings.policy := fun h => h
    have hknows : KnowsMore file oracle .noTypeInfo := ⟨fun _ _ _ => rfl, fun _ _ _ => rfl⟩
    exact checkWith_mono hknows hlax settings.severity path

/-- `s.subscribe(a, b);t.subscribe(a, b);` -/
def twoSubscriptions : SourceFile where
  path := ⟨"two.ts"⟩
  dialect := .typeScript
  text := "s.subscribe(a, b);t.subscribe(a, b);"
  tree := .mk { kind := .program, stop := 36 } [Oracle.subscription 0, Oracle.subscription 18]

def rulesOutS : TypeOracle where
  couldBeObservable p := p.text twoSubscriptions.text != "s"
  couldBeFunction _ := true

theorem twoSubscriptions_one_let_off :
    KnowsMore twoSubscriptions rulesOutS .noTypeInfo ∧
      (checkWith ⟨true, .error⟩ rulesOutS ⟨"two.ts"⟩ twoSubscriptions).length = 1 ∧
      (checkWith ⟨false, .error⟩ .noTypeInfo ⟨"two.ts"⟩ twoSubscriptions).length = 2 ∧
      (checkWith ⟨true, .error⟩ rulesOutS ⟨"two.ts"⟩ twoSubscriptions).Sublist
        (checkWith ⟨false, .error⟩ .noTypeInfo ⟨"two.ts"⟩ twoSubscriptions) := by
  have hknows : KnowsMore twoSubscriptions rulesOutS .noTypeInfo :=
    ⟨fun _ _ _ => rfl, fun _ _ _ => rfl⟩
  refine ⟨hknows, by decide, by decide, ?_⟩
  exact ((laxer_reports_sublist twoSubscriptions ⟨"two.ts"⟩).1 ⟨true⟩ ⟨false⟩ rulesOutS .noTypeInfo
    (fun _ => rfl) hknows).2.2 .error

end ObserverLint.PreferObserver
