import ObserverLint.Proofs.Gathering
import ObserverLint.Proofs.Offences

namespace ObserverLint

open InStep

namespace Oracle

theorem typeShape_aside {n : Node} (h : n.isAside = true) (source : String) :
    typeShape source n = .unknown := by
  rcases n with ⟨label, ns⟩
  have hkind : label.kind = .comment := (Node.isAside_iff.mp h).1
  simp only [typeShape, hkind]

theorem exprShape_aside {p : Place} (h : p.node.isAside = true) (d : Declarations)
    (source : String) : exprShape d source p = .unknown := by
  rcases p with ⟨address, ⟨label, ns⟩, above⟩
  have hkind : label.kind = .comment := (Node.isAside_iff.mp h).1
  simp only [exprShape, exprShapeAt, hkind]

theorem any_couldBe {parts : List Shape} (h : .unknown ∈ parts) (aspect : Aspect) :
    ((Shape.any parts).on aspect).couldBe = true := by
  have hany (ps : List Possibility) (hps : .unknown ∈ ps) :
      (Possibility.any ps).couldBe = true := by
    have hnot : ¬ (ps ≠ [] ∧ ∀ p ∈ ps, p = .no) := by
      intro hall
      cases hall.2 _ hps
    rw [Possibility.any, if_neg hnot]
    split <;> rfl
  cases aspect with
  | observable => exact hany _ (List.mem_map.mpr ⟨_, h, rfl⟩)
  | function => exact hany _ (List.mem_map.mpr ⟨_, h, rfl⟩)

/-- A type with a comment in the way could be the type of anything. -/
theorem typeShape_obstructed {n : Node} (h : n.obstructed = true)
    (hkind : n.kind.isWrapper = false) (source : String) (aspect : Aspect) :
    ((typeShape source n).on aspect).couldBe = true := by
  rcases n with ⟨label, ns⟩
  have hfirst (hread : (ns.find? Node.named).any Node.isAside = true) :
      firstTypeShape source ns = .unknown := by
    obtain ⟨c, hc, haside⟩ := (Option.any_eq_true _ _).mp hread
    rw [firstTypeShape_eq, hc, Option.map_some, Option.getD_some, typeShape_aside haside]
  have hall (hread : (ns.filter Node.named).any Node.isAside = true) :
      .unknown ∈ typeShapes source ns := by
    obtain ⟨c, hc, haside⟩ := List.any_eq_true.mp hread
    rw [typeShapes_eq, ← typeShape_aside haside source]
    exact List.mem_map_of_mem hc
  simp only [Node.obstructed, Node.kind, Node.label_mk] at h hkind
  simp only [typeShape]
  cases hk : label.kind
  all_goals simp only [hk] at h hkind
  case annotatedType | parenthesizedType =>
    dsimp only
    rw [hfirst h, Shape.unknown_on]
    rfl
  case unionType | intersectionType => exact any_couldBe (hall h) aspect
  case parenthesized | asExpression | satisfiesExpression | nonNullExpression | typeAssertion =>
    cases hkind
  all_goals cases h

/-- An expression with a comment in the way could be anything, unless its type is asserted after
it. -/
theorem exprShape_obstructed {p : Place} (h : p.node.obstructed = true)
    (hwrapper : p.kind.isWrapper = true) (has : p.kind ≠ .asExpression) (d : Declarations)
    (source : String) : exprShape d source p = .unknown := by
  have hfirst (accepts : Kind → Bool)
      (hread : (p.node.children.find? fun c => c.named && accepts c.kind).any Node.isAside = true) :
      firstExprShape d source accepts p.address (p.node :: p.above) 0 p.node.children =
        .unknown := by
    rw [← Place.map_node_children, List.find?_map, Option.any_map] at hread
    obtain ⟨c, hc, haside⟩ := (Option.any_eq_true _ _).mp hread
    rw [firstExprShape_eq, ← Place.children]
    exact (congrArg (fun found => (Option.map (exprShape d source) found).getD .unknown) hc).trans
      (exprShape_aside haside d source)
  rcases p with ⟨address, ⟨label, ns⟩, above⟩
  change label.kind.isWrapper = true at hwrapper
  simp only [Node.obstructed, Node.kind, Node.label_mk] at h
  simp only [exprShape, exprShapeAt]
  cases hk : label.kind
  all_goals simp only [hk] at h hwrapper
  case parenthesized | satisfiesExpression | nonNullExpression =>
    exact hfirst _ (by simpa using h)
  case typeAssertion => exact hfirst _ h
  case asExpression => exact absurd hk has
  case annotatedType | parenthesizedType | unionType | intersectionType => cases hwrapper
  all_goals cases h

end Oracle

namespace PreferObserver

open Place (Counterpart root)

inductive CalleeMatch (source other : String) (t u : Node) : Callee → Callee → Prop
  | identifier {a b : Place} : Counterpart (root t) (root u) a b → a.text source = b.text other →
      CalleeMatch source other t u (.identifier a) (.identifier b)
  | member {a b a' b' : Place} : Counterpart (root t) (root u) a b →
      Counterpart (root t) (root u) a' b' → a'.text source = b'.text other →
      CalleeMatch source other t u (.member a a') (.member b b')
  | other {a b : Place} : Counterpart (root t) (root u) a b →
      CalleeMatch source other t u (.other a) (.other b)

structure SiteMatch (source other : String) (t u : Node) (x y : CallSite) : Prop where
  place : Counterpart (root t) (root u) x.calleePlace y.calleePlace
  callee : CalleeMatch source other t u x.callee y.callee
  arguments : List.Forall₂ (Counterpart (root t) (root u)) x.arguments y.arguments

def SameAnswers (t u : Node) (oracle answers : TypeOracle) : Prop :=
  ∀ p q, Counterpart (root t) (root u) p q →
    oracle.couldBeObservable p = answers.couldBeObservable q ∧
      oracle.couldBeFunction p = answers.couldBeFunction q

section Matching

variable {source other : String} {t u : Node} {p q : Place}
  (halike : Node.Alike source other t u)

theorem CalleeMatch.name?_eq {x y : Callee} (h : CalleeMatch source other t u x y) :
    x.name? source = y.name? other := by
  cases h with
  | identifier _ htext => exact congrArg some htext
  | member _ _ htext => exact congrArg some htext
  | other _ => rfl

theorem SiteMatch.name?_eq {x y : CallSite} (h : SiteMatch source other t u x y) :
    x.name? source = y.name? other :=
  h.callee.name?_eq

theorem CalleeMatch.isMember_eq {x y : Callee} (h : CalleeMatch source other t u x y) :
    x.isMember = y.isMember := by
  cases h <;> rfl

include halike

theorem callee_match (h : Counterpart (root t) (root u) p q) :
    CalleeMatch source other t u (Callee.ofPlace p) (Callee.ofPlace q) := by
  have hkind := h.kind_eq halike
  unfold Callee.ofPlace
  rw [← hkind]
  cases hp : p.kind
  case memberExpression =>
    have hobject := h.child? halike .object
    have hproperty := h.word? halike .property (by rw [hp]; exact List.mem_cons_self)
    generalize p.child? .object = x, q.child? .object = y at hobject
    generalize p.child? .property = x', q.child? .property = y' at hproperty
    cases hobject with
    | none => exact .other h
    | some hobject =>
      cases hproperty with
      | none => exact .other h
      | some hproperty => exact .member hobject hproperty.1 hproperty.2
  case identifier => exact .identifier h (h.text_eq halike (by rw [hp]; rfl))
  all_goals exact .other h

theorem arguments_rel (h : Counterpart (root t) (root u) p q) :
    List.Forall₂ (Counterpart (root t) (root u)) (CallSite.argumentsOf p)
      (CallSite.argumentsOf q) := by
  rw [CallSite.argumentsOf, CallSite.argumentsOf, Place.namedChildren, Place.namedChildren,
    List.filter_filter, List.filter_filter]
  refine Oracle.filter_children_rel halike h ?_ ?_
  · intro c hc hcomment
    simp [hcomment] at hc
  · intro c c' hc
    rw [hc.kind_eq halike, (hc.alike halike).named]

theorem site_rel (h : Counterpart (root t) (root u) p q) :
    Option.Rel (SiteMatch source other t u) (CallSite.ofPlace? p) (CallSite.ofPlace? q) := by
  have hfunction := h.child? halike .function
  have hlist := h.child? halike .arguments
  unfold CallSite.ofPlace?
  rw [← h.kind_eq halike]
  generalize p.child? .function = x, q.child? .function = y at hfunction
  generalize p.child? .arguments = x', q.child? .arguments = y' at hlist
  cases hp : p.kind
  case callExpression =>
    cases hfunction with
    | none => exact .none
    | some hfunction =>
      cases hlist with
      | none => exact .none
      | some hlist =>
        simp only [← hlist.kind_eq halike]
        split
        · exact .some ⟨hfunction, callee_match halike hfunction, arguments_rel halike hlist⟩
        · exact .none
  all_goals exact .none

theorem isPiped_eq (h : Counterpart (root t) (root u) p q) :
    isPiped source p = isPiped other q := by
  have hlist : Option.Rel (Counterpart (root t) (root u)) (outsideParentheses? p)
      (outsideParentheses? q) := by
    refine rel_find? ?_ h.ancestors
    intro a b hab
    rw [hab.kind_eq halike]
  unfold isPiped
  generalize outsideParentheses? p = x, outsideParentheses? q = y at hlist
  cases hlist with
  | none => rfl
  | @some list list' hlist =>
    have hsite : Option.Rel (SiteMatch source other t u) (list.parent?.bind CallSite.ofPlace?)
        (list'.parent?.bind CallSite.ofPlace?) := by
      have hparent := hlist.parent?
      generalize list.parent? = x, list'.parent? = y at hparent
      cases hparent with
      | none => exact .none
      | some houter => exact site_rel halike houter
    simp only [hlist.kind_eq halike]
    generalize list.parent?.bind CallSite.ofPlace? = x, list'.parent?.bind CallSite.ofPlace? = y
      at hsite
    cases hsite with
    | none => rfl
    | some hsite => simp only [hsite.name?_eq, hsite.callee.isMember_eq]

theorem tapInPipe?_rel (h : Counterpart (root t) (root u) p q) :
    Option.Rel (fun x y => SiteMatch source other t u x.site y.site ∧
      Counterpart (root t) (root u) x.anchor y.anchor) (tapInPipe? source p)
        (tapInPipe? other q) := by
  have hsite := site_rel halike h
  simp only [tapInPipe?, isPiped_eq halike h, Option.bind_eq_bind]
  generalize CallSite.ofPlace? p = x, CallSite.ofPlace? q = y at hsite
  cases hsite with
  | none => exact .none
  | @some x y hsite =>
    simp only [Option.bind_some, hsite.name?_eq]
    by_cases htap : y.name? other = some "tap" ∧ isPiped other q = true
    · rw [if_pos htap, if_pos htap]
      exact .some ⟨hsite, hsite.place⟩
    · rw [if_neg htap, if_neg htap]
      exact .none

theorem subscribe?_rel (h : Counterpart (root t) (root u) p q) :
    Option.Rel (fun x y => SiteMatch source other t u x.site y.site ∧
      Counterpart (root t) (root u) x.anchor y.anchor) (subscribe? source p)
        (subscribe? other q) := by
  have hsite := site_rel halike h
  simp only [subscribe?, Option.bind_eq_bind]
  generalize CallSite.ofPlace? p = x, CallSite.ofPlace? q = y at hsite
  cases hsite with
  | none => exact .none
  | @some x y hsite =>
    have hcallee := hsite.callee
    simp only [Option.bind_some]
    generalize x.callee = f, y.callee = g at hcallee
    cases hcallee with
    | identifier => exact .none
    | other => exact .none
    | @member _ _ _ name _ hproperty htext =>
      simp only [htext]
      by_cases hname : name.text other = "subscribe"
      · rw [if_pos hname, if_pos hname]
        exact .some ⟨hsite, hproperty⟩
      · rw [if_neg hname, if_neg hname]
        exact .none

/-- The same calls are candidates, to be reported at the same nodes. -/
theorem candidate?_rel (h : Counterpart (root t) (root u) p q) :
    Option.Rel (fun x y => SiteMatch source other t u x.site y.site ∧
      Counterpart (root t) (root u) x.anchor y.anchor) (candidate? source p)
        (candidate? other q) := by
  have htap := tapInPipe?_rel halike h
  rw [candidate?, candidate?]
  generalize tapInPipe? source p = x, tapInPipe? other q = y at htap
  cases htap with
  | none => exact subscribe?_rel halike h
  | some htap => exact .some htap

omit halike in
theorem couldHaveStream_eq {oracle answers : TypeOracle} {x y : Callee}
    (hsame : SameAnswers t u oracle answers) (h : CalleeMatch source other t u x y) :
    couldHaveStream oracle x = couldHaveStream answers y := by
  cases h with
  | member hobject => exact (hsame _ _ hobject).1
  | identifier => rfl
  | other => rfl

theorem isCallable_eq {oracle answers : TypeOracle} (hsame : SameAnswers t u oracle answers)
    (h : Counterpart (root t) (root u) p q) : isCallable oracle p = isCallable answers q := by
  rw [isCallable, isCallable, ← h.kind_eq halike, (hsame p q h).2]

theorem separateHandlers_eq {oracle answers : TypeOracle} {ps qs : List Place} (policy : Policy)
    (hsame : SameAnswers t u oracle answers)
    (h : List.Forall₂ (Counterpart (root t) (root u)) ps qs) :
    separateHandlers policy oracle ps = separateHandlers policy answers qs := by
  cases h with
  | nil => rfl
  | cons hfirst hrest =>
    cases hrest with
    | nil => rw [separateHandlers, separateHandlers, isCallable_eq halike hsame hfirst]
    | cons => rfl

theorem findingAt?_rel {oracle answers : TypeOracle} (policy : Policy)
    (hsame : SameAnswers t u oracle answers) (h : Counterpart (root t) (root u) p q) :
    Option.Rel (fun x y => Counterpart (root t) (root u) x.anchor y.anchor)
      (findingAt? policy oracle source p) (findingAt? policy answers other q) := by
  have hcandidate := candidate?_rel halike h
  rw [findingAt?, findingAt?]
  generalize candidate? source p = x, candidate? other q = y at hcandidate
  cases hcandidate with
  | none => exact .none
  | @some x y hcandidate =>
    simp only [Option.bind_some, evaluate, couldHaveStream_eq hsame hcandidate.1.callee,
      separateHandlers_eq halike policy hsame hcandidate.1.arguments]
    cases couldHaveStream answers y.site.callee && separateHandlers policy answers y.site.arguments
    · exact .none
    · exact .some hcandidate.2

end Matching

section Reports

variable {file other : SourceFile}

theorem reports_eq_filterMap (policy : Policy) (oracle : TypeOracle) (file : SourceFile) :
    reports policy oracle file = file.root.code.filterMap fun c =>
      if c.kind == .callExpression then
        (findingAt? policy oracle file.text c).map fun finding => (c, finding.anchor)
      else none := by
  rw [reports, SourceFile.calls, SourceFile.places_eq_preorder, List.filterMap_filter]
  refine Place.filterMap_preorder ?_ file.root
  intro c hc
  have hkind : c.kind = .comment := (Node.isAside_iff.mp hc).1
  rw [hkind]
  rfl

/-- In two files that differ in comments only, the same calls are reported at the same nodes if the
oracles give the same answers. -/
theorem reports_rel (halike : Node.Alike file.text other.text file.tree other.tree)
    (policy : Policy) {oracle answers : TypeOracle}
    (hsame : SameAnswers file.tree other.tree oracle answers) :
    List.Forall₂ (fun x y => Counterpart file.root other.root x.1 y.1 ∧
      Counterpart file.root other.root x.2 y.2) (reports policy oracle file)
        (reports policy answers other) := by
  rw [reports_eq_filterMap, reports_eq_filterMap]
  refine List.rel_filterMap ?_ (Counterpart.refl.code halike)
  intro p q hpq
  have hfinding := findingAt?_rel halike policy hsame hpq
  simp only [hpq.kind_eq halike]
  generalize findingAt? policy oracle file.text p = x, findingAt? policy answers other.text q = y
    at hfinding
  cases q.kind == .callExpression with
  | false => exact .none
  | true =>
    cases hfinding with
    | none => exact .none
    | some hanchor => exact .some ⟨hpq, hanchor⟩

theorem sameAnswers_ofFile (halike : Node.Alike file.text other.text file.tree other.tree)
    (ht : file.tree.clear = true) (hu : other.tree.clear = true) :
    SameAnswers file.tree other.tree (.ofFile file) (.ofFile other) := by
  intro p q hpq
  have hshape := Oracle.exprShape_eq halike ht hu
    (Oracle.declarations_corresponds halike ht hu) hpq
  exact ⟨congrArg (fun shape => shape.observable.couldBe) hshape,
    congrArg (fun shape => shape.function.couldBe) hshape⟩

theorem check_eq_map_reports (settings : Settings) (path : Path) (file : SourceFile) :
    check settings path file = (reports settings.policy (.ofFile file) file).map fun report =>
      Finding.toViolation settings.severity path file.text ⟨.forbidden, report.2⟩ := by
  rw [check, checkWith, findings_eq_map_reports, List.map_map]
  rfl

/-- Comments make no difference to the search for calls, and none to what is known about them as
long as no comment is in the way. A comment that is in the way hides what is known: an expression or
a type that is read there could then be anything. -/
theorem reports_unchanged_by_comments {file other : SourceFile}
    (halike : Node.alike file.text other.text file.tree other.tree = true) :
    (∀ policy oracle answers, SameAnswers file.tree other.tree oracle answers →
      List.Forall₂ (fun x y => Counterpart file.root other.root x.1 y.1 ∧
        Counterpart file.root other.root x.2 y.2) (reports policy oracle file)
          (reports policy answers other)) ∧
    (file.tree.clear = true → other.tree.clear = true → ∀ settings path path',
      List.Forall₂ (fun x y => Counterpart file.root other.root x.1 y.1 ∧
        Counterpart file.root other.root x.2 y.2) (reports settings.policy (.ofFile file) file)
          (reports settings.policy (.ofFile other) other) ∧
      check settings path file = (reports settings.policy (.ofFile file) file).map (fun report =>
        Finding.toViolation settings.severity path file.text ⟨.forbidden, report.2⟩) ∧
      check settings path' other = (reports settings.policy (.ofFile other) other).map
        (fun report =>
          Finding.toViolation settings.severity path' other.text ⟨.forbidden, report.2⟩)) ∧
    (∀ p, p.node.obstructed = true → ∀ aspect,
      (p.kind.isWrapper = false →
        ((Oracle.typeShape file.text p.node).on aspect).couldBe = true) ∧
      (p.kind.isWrapper = true → p.kind ≠ .asExpression →
        (TypeOracle.ofFile file).couldBe aspect p = true)) := by
  have halike := Node.alike_iff.mp halike
  refine ⟨?_, ?_, ?_⟩
  · intro policy oracle answers hsame
    exact reports_rel halike policy hsame
  · intro ht hu settings path path'
    exact ⟨reports_rel halike settings.policy (sameAnswers_ofFile halike ht hu),
      check_eq_map_reports settings path file, check_eq_map_reports settings path' other⟩
  · intro p hp aspect
    constructor
    · intro htype
      exact Oracle.typeShape_obstructed hp htype file.text aspect
    · intro hwrapper has
      rw [TypeOracle.ofFile, TypeOracle.couldBe_ofDeclarations,
        Oracle.exprShape_obstructed hp hwrapper has, Shape.unknown_on]
      rfl

end Reports

/-- `var s:string;s.subscribe(a, b);t.subscribe(a, b);`, with a comment before the type or after it,
if `before` or `after` is not empty. -/
def typedSubscription (before after : String) : SourceFile where
  path := ⟨"typed.ts"⟩
  dialect := .typeScript
  text := "var s:" ++ before ++ "string" ++ after ++ ";s.subscribe(a, b);t.subscribe(a, b);"
  tree :=
    let start := 6 + before.utf8ByteSize
    let stop := start + 6 + after.utf8ByteSize
    let comment (start stop : Nat) : List Node :=
      if start < stop then [.mk { kind := .comment, start, stop } []] else []
    .mk { kind := .program, stop := stop + 37 } [
      .mk { kind := .variableDeclaration, stop := stop + 1 } [
        .mk { kind := .variableDeclarator, start := 4, stop } [
          .mk { kind := .identifier, field := some .name, start := 4, stop := 5 } [],
          .mk { kind := .annotatedType, field := some .type, start := 5, stop } (
            .mk { kind := .other ":", named := false, start := 5, stop := 6 } [] ::
              comment 6 start ++
              .mk { kind := .predefinedType, start, stop := start + 6 } [] ::
              comment (start + 6) stop)]],
      Oracle.subscription (stop + 1),
      Oracle.subscription (stop + 19)]

/-- A comment after the type is in nobody's way: `s` is a string with it and without it, and only
`t.subscribe(a, b)` is reported. -/
theorem comment_after_type_unnoticed :
    Node.alike (typedSubscription "" "").text (typedSubscription "" "/**/").text
        (typedSubscription "" "").tree (typedSubscription "" "/**/").tree = true ∧
      (typedSubscription "" "").tree.clear = true ∧
      (typedSubscription "" "/**/").tree.clear = true ∧
      (check {} ⟨"typed.ts"⟩ (typedSubscription "" "")).length = 1 ∧
      List.Forall₂ (fun x y =>
        Counterpart (typedSubscription "" "").root (typedSubscription "" "/**/").root x.1 y.1 ∧
        Counterpart (typedSubscription "" "").root (typedSubscription "" "/**/").root x.2 y.2)
          (reports ⟨true⟩ (.ofFile (typedSubscription "" "")) (typedSubscription "" ""))
          (reports ⟨true⟩ (.ofFile (typedSubscription "" "/**/")) (typedSubscription "" "/**/")) ∧
      List.Forall₂ (fun x y =>
        Counterpart (typedSubscription "" "").root (typedSubscription "" "/**/").root x.1 y.1 ∧
        Counterpart (typedSubscription "" "").root (typedSubscription "" "/**/").root x.2 y.2)
          (reports ⟨false⟩ .noTypeInfo (typedSubscription "" ""))
          (reports ⟨false⟩ .noTypeInfo (typedSubscription "" "/**/")) := by
  have halike : Node.alike (typedSubscription "" "").text (typedSubscription "" "/**/").text
      (typedSubscription "" "").tree (typedSubscription "" "/**/").tree = true := by decide
  have hsame := reports_unchanged_by_comments halike
  refine ⟨halike, by decide, by decide, by decide, ?_, ?_⟩
  · exact (hsame.2.1 (by decide) (by decide) {} ⟨"typed.ts"⟩ ⟨"typed.ts"⟩).1
  · exact hsame.1 ⟨false⟩ .noTypeInfo .noTypeInfo fun _ _ _ => ⟨rfl, rfl⟩

/-- A comment before the type is taken for the type, so that `s` could be a stream and
`s.subscribe(a, b)` is reported too. -/
theorem comment_before_type_noticed :
    Node.alike (typedSubscription "" "").text (typedSubscription "/**/" "").text
        (typedSubscription "" "").tree (typedSubscription "/**/" "").tree = true ∧
      ((typedSubscription "/**/" "").placeAt 4).node.obstructed = true ∧
      (check {} ⟨"typed.ts"⟩ (typedSubscription "" "")).length = 1 ∧
      (check {} ⟨"typed.ts"⟩ (typedSubscription "/**/" "")).length = 2 := by
  decide

end PreferObserver

end ObserverLint
