import ObserverLint.Proofs.CursorWalk
import ObserverLint.Rules.PreferObserver

namespace ObserverLint.PreferObserver

open Place

structure Calls (c f list : Place) : Prop where
  isCall : c.kind = .callExpression
  callee : c.child? .function = some f
  arguments : c.child? .arguments = some list
  isList : list.kind = .arguments

structure Accesses (f object property : Place) : Prop where
  isMember : f.kind = .memberExpression
  object : f.child? .object = some object
  property : f.child? .property = some property

/-- Going down from `list` through parentheses and nothing else leads to the place. -/
inductive BelowParentheses (list : Place) : Place → Prop
  | direct {c : Place} : c ∈ list.children → BelowParentheses list c
  | inside {q c : Place} : BelowParentheses list q → q.kind = .parenthesized → c ∈ q.children →
      BelowParentheses list c

def CallsPipe (source : String) (outer : Place) : Prop :=
  ∃ f list object property, Calls outer f list ∧ Accesses f object property ∧
    property.text source = "pipe"

def PassedToPipe (file : SourceFile) (c : Place) : Prop :=
  ∃ outer list, Within file.root outer ∧ CallsPipe file.text outer ∧ list ∈ outer.children ∧
    list.kind = .arguments ∧ BelowParentheses list c

/-- The call `c` of `f` has one of the two forms that the rule is about. The last place is where a
report about it is put. -/
inductive Form (file : SourceFile) (c f : Place) : Place → Prop
  | subscribe {object property : Place} : Accesses f object property →
      property.text file.text = "subscribe" → Form file c f property
  | tapName : f.kind = .identifier → f.text file.text = "tap" → PassedToPipe file c →
      Form file c f f
  | tapMember {object property : Place} : Accesses f object property →
      property.text file.text = "tap" → PassedToPipe file c → Form file c f f

def passed (list : Place) : List Place :=
  list.children.filter fun a => a.node.named && a.kind != .comment

/-- Two arguments are separate handlers; a single one is if the policy forbids it and it could be
a function. -/
def PassesHandlers (policy : Policy) (oracle : TypeOracle) (list : Place) : Prop :=
  2 ≤ (passed list).length ∨
    policy.allowNext = false ∧ ∃ a, passed list = [a] ∧
      (a.kind = .arrowFunction ∨ a.kind = .functionExpression ∨ a.kind = .function ∨
        oracle.couldBeFunction a = true)

/-- The call `c` passes separate handlers to something that could be a stream. -/
def Offence (policy : Policy) (oracle : TypeOracle) (file : SourceFile) (c anchor : Place) :
    Prop :=
  ∃ f list, Calls c f list ∧ Form file c f anchor ∧
    (∀ object property, Accesses f object property → oracle.couldBeObservable object = true) ∧
    PassesHandlers policy oracle list

theorem ofPlace?_eq_some_iff {c : Place} {site : CallSite} :
    CallSite.ofPlace? c = some site ↔
      ∃ f list, Calls c f list ∧ site = ⟨f, Callee.ofPlace f, CallSite.argumentsOf list⟩ := by
  unfold CallSite.ofPlace?
  constructor
  · intro h
    split at h
    · rename_i f list hc hf hl
      split at h
      · rename_i hkind
        exact ⟨f, list, ⟨hc, hf, hl, hkind⟩, (Option.some.inj h).symm⟩
      · cases h
    · cases h
  · rintro ⟨f, list, ⟨hc, hf, hl, hkind⟩, rfl⟩
    simp [hc, hf, hl, hkind]

theorem Calls.unique {c f g list list' : Place} (h : Calls c f list) (h' : Calls c g list') :
    f = g ∧ list = list' :=
  ⟨Option.some.inj (h.callee.symm.trans h'.callee),
    Option.some.inj (h.arguments.symm.trans h'.arguments)⟩

theorem ofPlace_of_accesses {f object property : Place} (h : Accesses f object property) :
    Callee.ofPlace f = .member object property := by
  simp [Callee.ofPlace, h.isMember, h.object, h.property]

theorem accesses_of_ofPlace {f object property : Place}
    (h : Callee.ofPlace f = .member object property) : Accesses f object property := by
  unfold Callee.ofPlace at h
  split at h
  · rename_i hk ho hp
    cases h
    exact ⟨hk, ho, hp⟩
  · cases h
  · cases h

theorem ofPlace_of_identifier {f : Place} (h : f.kind = .identifier) :
    Callee.ofPlace f = .identifier f := by
  simp [Callee.ofPlace, h]

theorem identifier_of_ofPlace {f name : Place} (h : Callee.ofPlace f = .identifier name) :
    f.kind = .identifier ∧ name = f := by
  unfold Callee.ofPlace at h
  split at h
  · cases h
  · rename_i hk
    cases h
    exact ⟨hk, rfl⟩
  · cases h

/-- A callee is called by a name if it is an identifier or a member of that name. -/
theorem name?_ofPlace_iff {source name : String} {f : Place} :
    (Callee.ofPlace f).name? source = some name ↔
      (f.kind = .identifier ∧ f.text source = name) ∨
        ∃ object property, Accesses f object property ∧ property.text source = name := by
  constructor
  · intro h
    cases hf : Callee.ofPlace f with
    | identifier g =>
      obtain ⟨hk, rfl⟩ := identifier_of_ofPlace hf
      rw [hf] at h
      exact Or.inl ⟨hk, Option.some.inj h⟩
    | member object property =>
      rw [hf] at h
      exact Or.inr ⟨object, property, accesses_of_ofPlace hf, Option.some.inj h⟩
    | other g => rw [hf] at h; cases h
  · rintro (⟨hk, rfl⟩ | ⟨object, property, hf, rfl⟩)
    · rw [ofPlace_of_identifier hk]; rfl
    · rw [ofPlace_of_accesses hf]; rfl

theorem callsPipe_iff {source : String} {outer : Place} :
    CallsPipe source outer ↔
      ∃ site, CallSite.ofPlace? outer = some site ∧ site.callee.isMember = true ∧
        site.name? source = some "pipe" := by
  constructor
  · rintro ⟨f, list, object, property, hcall, hf, hname⟩
    refine ⟨_, ofPlace?_eq_some_iff.mpr ⟨f, list, hcall, rfl⟩, ?_, ?_⟩
    · simp [ofPlace_of_accesses hf, Callee.isMember]
    · exact name?_ofPlace_iff.mpr (Or.inr ⟨object, property, hf, hname⟩)
  · rintro ⟨site, hsite, hmember, hname⟩
    obtain ⟨f, list, hcall, rfl⟩ := ofPlace?_eq_some_iff.mp hsite
    rcases name?_ofPlace_iff.mp hname with ⟨hk, -⟩ | ⟨object, property, hf, hp⟩
    · simp [ofPlace_of_identifier hk, Callee.isMember] at hmember
    · exact ⟨f, list, object, property, hcall, hf, hp⟩

theorem outsideParentheses?_of_below {list c : Place} (h : BelowParentheses list c)
    (hlist : list.kind ≠ .parenthesized) : outsideParentheses? c = some list := by
  induction h with
  | direct hc =>
    rw [outsideParentheses?, ancestors_child hc]
    exact List.find?_cons_of_pos (by simpa using hlist)
  | inside _ hq hc ih =>
    rw [outsideParentheses?, ancestors_child hc, List.find?_cons_of_neg (by simp [hq])]
    exact ih

theorem below_of_outsideParentheses? {t : Node} {list c : Place} (hc : Within (root t) c)
    (h : outsideParentheses? c = some list) :
    Within (root t) list ∧ BelowParentheses list c := by
  induction hc generalizing list with
  | refl => simp [outsideParentheses?, ancestors, lineage, root] at h
  | @child q c hq hmem ih =>
    rw [outsideParentheses?, ancestors_child hmem, List.find?_cons] at h
    split at h
    · obtain rfl := Option.some.inj h
      exact ⟨hq, .direct hmem⟩
    · rename_i hkind
      obtain ⟨hl, hbelow⟩ := ih h
      exact ⟨hl, hbelow.inside (by simpa using hkind) hmem⟩

/-- Looking upward through parentheses finds the `pipe` exactly where going downward from it
through parentheses leads to the call. -/
theorem isPiped_iff {file : SourceFile} {c : Place} (hc : Within file.root c) :
    isPiped file.text c = true ↔ PassedToPipe file c := by
  unfold isPiped
  constructor
  · intro h
    split at h
    · cases h
    · rename_i list hlist
      obtain ⟨hl, hbelow⟩ := below_of_outsideParentheses? hc hlist
      rw [Bool.and_eq_true, beq_iff_eq] at h
      obtain ⟨hkind, h⟩ := h
      split at h
      · cases h
      · rename_i site hsite
        obtain ⟨outer, hparent, hsite⟩ := Option.bind_eq_some_iff.mp hsite
        obtain ⟨ho, hmem⟩ := parent?_eq_some hl hparent
        rw [Bool.and_eq_true, beq_iff_eq] at h
        exact ⟨outer, list, ho, callsPipe_iff.mpr ⟨site, hsite, h⟩, hmem, hkind, hbelow⟩
  · rintro ⟨outer, list, -, hpipe, hmem, hkind, hbelow⟩
    obtain ⟨site, hsite, hmember, hname⟩ := callsPipe_iff.mp hpipe
    -- A list of arguments is no parenthesis, so the way up stops at it.
    have hlist := outsideParentheses?_of_below hbelow (by simp [hkind])
    simp [hlist, hkind, parent?_child hmem, hsite, hmember, hname]

theorem tapInPipe?_eq_some_iff {source : String} {c : Place} {found : Candidate} :
    tapInPipe? source c = some found ↔
      ∃ f list, Calls c f list ∧ (Callee.ofPlace f).name? source = some "tap" ∧
        isPiped source c = true ∧
        found = ⟨.tapCall, ⟨f, Callee.ofPlace f, CallSite.argumentsOf list⟩, f⟩ := by
  constructor
  · intro h
    obtain ⟨site, hsite, h⟩ := Option.bind_eq_some_iff.mp h
    obtain ⟨f, list, hcall, rfl⟩ := ofPlace?_eq_some_iff.mp hsite
    split at h
    · rename_i hcond
      exact ⟨f, list, hcall, hcond.1, hcond.2, (Option.some.inj h).symm⟩
    · cases h
  · rintro ⟨f, list, hcall, hname, hpiped, rfl⟩
    refine Option.bind_eq_some_iff.mpr ⟨_, ofPlace?_eq_some_iff.mpr ⟨f, list, hcall, rfl⟩, ?_⟩
    exact if_pos ⟨hname, hpiped⟩

theorem subscribe?_eq_some_iff {source : String} {c : Place} {found : Candidate} :
    subscribe? source c = some found ↔
      ∃ f list object property, Calls c f list ∧ Accesses f object property ∧
        property.text source = "subscribe" ∧
        found = ⟨.subscribeCall, ⟨f, Callee.ofPlace f, CallSite.argumentsOf list⟩, property⟩ := by
  constructor
  · intro h
    obtain ⟨site, hsite, h⟩ := Option.bind_eq_some_iff.mp h
    obtain ⟨f, list, hcall, rfl⟩ := ofPlace?_eq_some_iff.mp hsite
    split at h
    · rename_i object property hf
      split at h
      · rename_i hname
        exact ⟨f, list, object, property, hcall, accesses_of_ofPlace hf, hname,
          (Option.some.inj h).symm⟩
      · cases h
    · cases h
  · rintro ⟨f, list, object, property, hcall, hf, hname, rfl⟩
    refine Option.bind_eq_some_iff.mpr ⟨_, ofPlace?_eq_some_iff.mpr ⟨f, list, hcall, rfl⟩, ?_⟩
    simp [ofPlace_of_accesses hf, hname]

/-- No call is of both forms, so it does not matter which of them is tried first. -/
theorem tapInPipe?_eq_none_of_subscribe? {source : String} {c : Place} {found : Candidate}
    (h : subscribe? source c = some found) : tapInPipe? source c = none := by
  obtain ⟨f, list, object, property, hcall, hf, hname, -⟩ := subscribe?_eq_some_iff.mp h
  refine Option.eq_none_iff_forall_ne_some.mpr ?_
  intro other hother
  obtain ⟨g, list', hcall', htap, -, -⟩ := tapInPipe?_eq_some_iff.mp hother
  obtain ⟨rfl, -⟩ := hcall.unique hcall'
  rw [ofPlace_of_accesses hf, Callee.name?, hname] at htap
  exact absurd htap (by decide)

theorem candidate?_eq_some_iff {source : String} {c : Place} {found : Candidate} :
    candidate? source c = some found ↔
      tapInPipe? source c = some found ∨ subscribe? source c = some found := by
  unfold candidate?
  cases htap : tapInPipe? source c with
  | none => simp
  | some tap =>
    -- `tap` is tried first, so it must not hide a `subscribe`.
    have hsub : subscribe? source c ≠ some found := by
      intro h
      rw [tapInPipe?_eq_none_of_subscribe? h] at htap
      cases htap
    simp [hsub]

/-- A candidate is a call of one of the two forms. -/
theorem exists_candidate?_iff {file : SourceFile} {c anchor : Place} {site : CallSite}
    (hc : Within file.root c) :
    (∃ kind, candidate? file.text c = some ⟨kind, site, anchor⟩) ↔
      ∃ f list, Calls c f list ∧ Form file c f anchor ∧
        site = ⟨f, Callee.ofPlace f, CallSite.argumentsOf list⟩ := by
  constructor
  · rintro ⟨kind, h⟩
    rcases candidate?_eq_some_iff.mp h with htap | hsub
    · obtain ⟨f, list, hcall, hname, hpiped, heq⟩ := tapInPipe?_eq_some_iff.mp htap
      cases heq
      have hpipe := (isPiped_iff hc).mp hpiped
      rcases name?_ofPlace_iff.mp hname with ⟨hk, hn⟩ | ⟨object, property, hf, hn⟩
      · exact ⟨anchor, list, hcall, .tapName hk hn hpipe, rfl⟩
      · exact ⟨anchor, list, hcall, .tapMember hf hn hpipe, rfl⟩
    · obtain ⟨f, list, object, property, hcall, hf, hname, heq⟩ := subscribe?_eq_some_iff.mp hsub
      cases heq
      exact ⟨f, list, hcall, .subscribe hf hname, rfl⟩
  · rintro ⟨f, list, hcall, hform, rfl⟩
    have htap (hname : (Callee.ofPlace f).name? file.text = some "tap")
        (hpipe : PassedToPipe file c) :
        ∃ kind, candidate? file.text c =
          some ⟨kind, ⟨f, Callee.ofPlace f, CallSite.argumentsOf list⟩, f⟩ :=
      ⟨.tapCall, candidate?_eq_some_iff.mpr (Or.inl (tapInPipe?_eq_some_iff.mpr
        ⟨f, list, hcall, hname, (isPiped_iff hc).mpr hpipe, rfl⟩))⟩
    cases hform with
    | @subscribe object _ hf hname =>
      exact ⟨.subscribeCall, candidate?_eq_some_iff.mpr (Or.inr (subscribe?_eq_some_iff.mpr
        ⟨f, list, object, _, hcall, hf, hname, rfl⟩))⟩
    | tapName hk hname hpipe => exact htap (name?_ofPlace_iff.mpr (Or.inl ⟨hk, hname⟩)) hpipe
    | tapMember hf hname hpipe =>
      exact htap (name?_ofPlace_iff.mpr (Or.inr ⟨_, _, hf, hname⟩)) hpipe

theorem couldHaveStream_iff {oracle : TypeOracle} {f : Place} :
    couldHaveStream oracle (Callee.ofPlace f) = true ↔
      ∀ object property, Accesses f object property → oracle.couldBeObservable object = true := by
  constructor
  · intro h object property hf
    rw [ofPlace_of_accesses hf] at h
    exact h
  · intro h
    cases hf : Callee.ofPlace f with
    | member object property => exact h object property (accesses_of_ofPlace hf)
    | identifier _ => rfl
    | other _ => rfl

theorem isCallable_iff {oracle : TypeOracle} {a : Place} :
    isCallable oracle a = true ↔
      a.kind = .arrowFunction ∨ a.kind = .functionExpression ∨ a.kind = .function ∨
        oracle.couldBeFunction a = true := by
  unfold isCallable
  split
  · simp_all
  · simp_all
  · simp_all
  · simp_all

theorem argumentsOf_eq_passed (list : Place) : CallSite.argumentsOf list = passed list := by
  rw [CallSite.argumentsOf, namedChildren, List.filter_filter, passed]
  congr 1
  funext a
  exact Bool.and_comm _ _

theorem separateHandlers_iff {policy : Policy} {oracle : TypeOracle} {list : Place} :
    separateHandlers policy oracle (CallSite.argumentsOf list) = true ↔
      PassesHandlers policy oracle list := by
  rw [argumentsOf_eq_passed, PassesHandlers]
  match passed list with
  | [] => simp [separateHandlers]
  | [only] => simp [separateHandlers, isCallable_iff]
  | _ :: _ :: _ => simp [separateHandlers]

theorem evaluate_eq_some_iff {policy : Policy} {oracle : TypeOracle} {found : Candidate}
    {finding : Finding} :
    evaluate policy oracle found = some finding ↔
      couldHaveStream oracle found.site.callee = true ∧
        separateHandlers policy oracle found.site.arguments = true ∧
        finding = ⟨.forbidden, found.anchor⟩ := by
  unfold evaluate
  split
  · rename_i h
    rw [Bool.and_eq_true] at h
    simp [h, eq_comm]
  · rename_i h
    rw [Bool.and_eq_true] at h
    constructor
    · intro hfalse
      cases hfalse
    · rintro ⟨h1, h2, -⟩
      exact absurd ⟨h1, h2⟩ h

theorem findingAt?_eq_some_iff {policy : Policy} {oracle : TypeOracle} {file : SourceFile}
    {c : Place} {finding : Finding} (hc : Within file.root c) :
    findingAt? policy oracle file.text c = some finding ↔
      Offence policy oracle file c finding.anchor := by
  unfold findingAt?
  rw [Option.bind_eq_some_iff]
  constructor
  · rintro ⟨⟨kind, site, anchor⟩, hfound, heval⟩
    obtain ⟨hstream, hhandlers, rfl⟩ := evaluate_eq_some_iff.mp heval
    obtain ⟨f, list, hcall, hform, rfl⟩ := (exists_candidate?_iff hc).mp ⟨kind, hfound⟩
    exact ⟨f, list, hcall, hform, couldHaveStream_iff.mp hstream,
      separateHandlers_iff.mp hhandlers⟩
  · rintro ⟨f, list, hcall, hform, hstream, hhandlers⟩
    obtain ⟨kind, hfound⟩ := (exists_candidate?_iff hc).mpr ⟨f, list, hcall, hform, rfl⟩
    refine ⟨_, hfound, evaluate_eq_some_iff.mpr ⟨couldHaveStream_iff.mpr hstream,
      separateHandlers_iff.mpr hhandlers, ?_⟩⟩
    cases finding with
    | mk messageId anchor => cases messageId; rfl

theorem Offence.isCall {policy : Policy} {oracle : TypeOracle} {file : SourceFile}
    {c anchor : Place} (h : Offence policy oracle file c anchor) : c.kind = .callExpression := by
  obtain ⟨f, list, hcall, -⟩ := h
  exact hcall.isCall

def reports (policy : Policy) (oracle : TypeOracle) (file : SourceFile) : List (Place × Place) :=
  file.calls.filterMap fun c =>
    (findingAt? policy oracle file.text c).map fun finding => (c, finding.anchor)

theorem findings_eq_map_reports (policy : Policy) (oracle : TypeOracle) (file : SourceFile) :
    findings policy oracle file =
      (reports policy oracle file).map fun report => ⟨.forbidden, report.2⟩ := by
  rw [findings, reports, List.map_filterMap]
  congr 1
  funext c
  cases h : findingAt? policy oracle file.text c with
  | none => rfl
  | some finding =>
    cases finding with
    | mk messageId anchor => cases messageId; rfl

theorem mem_reports {policy : Policy} {oracle : TypeOracle} {file : SourceFile}
    {c anchor : Place} :
    (c, anchor) ∈ reports policy oracle file ↔
      Within file.root c ∧ Offence policy oracle file c anchor := by
  simp only [reports, List.mem_filterMap, Option.map_eq_some_iff, Prod.mk.injEq,
    SourceFile.calls, List.mem_filter, SourceFile.mem_places, beq_iff_eq]
  constructor
  · rintro ⟨_, ⟨hc, -⟩, finding, hfinding, rfl, rfl⟩
    exact ⟨hc, (findingAt?_eq_some_iff hc).mp hfinding⟩
  · rintro ⟨hc, hoffence⟩
    exact ⟨c, ⟨hc, hoffence.isCall⟩, ⟨.forbidden, anchor⟩,
      (findingAt?_eq_some_iff hc).mpr hoffence, rfl, rfl⟩

theorem reports_sublist (policy : Policy) (oracle : TypeOracle) (file : SourceFile) :
    ((reports policy oracle file).map Prod.fst).Sublist file.root.preorder := by
  have hsub : ((reports policy oracle file).map Prod.fst).Sublist file.calls := by
    rw [reports]
    induction file.calls with
    | nil => exact List.Sublist.slnil
    | cons c cs ih =>
      cases h : findingAt? policy oracle file.text c with
      | none => simpa [h] using ih.cons c
      | some finding => simpa [h] using ih.cons_cons c
  refine hsub.trans ?_
  rw [SourceFile.calls, SourceFile.places_eq_preorder]
  exact List.filter_sublist

/-- The rule reports exactly the offences: one violation for each, put at its anchor, in the order
in which the calls stand in the tree. -/
theorem checkWith_reports_exactly_the_offences (settings : Settings) (oracle : TypeOracle)
    (path : Path) (file : SourceFile) :
    ∃ reported : List (Place × Place),
      checkWith settings oracle path file =
          reported.map (fun report =>
            Finding.toViolation settings.severity path file.text ⟨.forbidden, report.2⟩) ∧
        (reported.map Prod.fst).Sublist file.root.preorder ∧
        (reported.map Prod.fst).Nodup ∧
        ∀ c anchor, (c, anchor) ∈ reported ↔
          c ∈ file.root.preorder ∧ Offence settings.policy oracle file c anchor := by
  refine ⟨reports settings.policy oracle file, ?_, reports_sublist _ _ _, ?_, ?_⟩
  · rw [checkWith, findings_eq_map_reports, List.map_map]
    rfl
  · exact (reports_sublist _ _ _).nodup (preorder_nodup file.root)
  · intro c anchor
    rw [mem_reports, mem_preorder]

end ObserverLint.PreferObserver
