import ObserverLint.Proofs.CursorWalk
import ObserverLint.Proofs.Leniency
import ObserverLint.Proofs.Rows

namespace ObserverLint

def Location.textIn (l : Location) (source : String) : String :=
  Text.slice source l.offset (l.offset + l.length)

theorem Location.textIn_ofPlace (path : Path) (source : String) (p : Place) :
    (Location.ofPlace path source p).textIn source = p.text source := by
  have hlength : p.start + (p.stop - p.start) - p.start = p.stop - p.start := by omega
  simp only [textIn, ofPlace, Place.text, Node.text, Text.slice, hlength]
  rfl

/-- Of two spans, one in the other, the text of the inner stands in that of the outer. -/
theorem Text.slice_eq_append {text : String} {start stop lower upper : Nat}
    {outer inner : List Char}
    (houter : (slice text start stop).toList = outer) (hne : outer ≠ [])
    (hinner : (slice text lower upper).toList = inner) (hne' : inner ≠ [])
    (hstart : start ≤ lower) (hstop : upper ≤ stop) :
    ∃ front back, outer = front ++ inner ++ back ∧ byteLength front = lower - start := by
  obtain ⟨ahead, behind, htext, hahead, houtside⟩ := exists_of_slice houter hne
  obtain ⟨before, after, htext', hbefore, hinside⟩ := exists_of_slice hinner hne'
  have hsplit : before ++ (inner ++ after) = ahead ++ (outer ++ behind) := by
    simpa only [List.append_assoc] using htext'.symm.trans htext
  obtain ⟨front, rfl⟩ := isPrefix_of_byteLength_le hsplit (by omega)
  have hrest : outer ++ behind = front ++ inner ++ after := by
    simpa only [List.append_assoc, List.append_cancel_left_eq] using hsplit.symm
  simp only [byteLength_append] at houtside hbefore hinside
  have hbytes : byteLength (front ++ inner) ≤ byteLength outer := by
    rw [byteLength_append]
    omega
  obtain ⟨back, rfl⟩ := isPrefix_of_byteLength_le hrest hbytes
  exact ⟨front, back, rfl, by omega⟩

namespace PreferObserver

open Place Text

def TapAt (source : String) (c anchor : Place) : Prop :=
  (∃ list, Calls c anchor list) ∧ (Callee.ofPlace anchor).name? source = some "tap"

def SubscribeAt (source : String) (c anchor : Place) : Prop :=
  (∃ f list object, Calls c f list ∧ Accesses f object anchor) ∧ anchor.text source = "subscribe"

/-- A member expression with the property `tap` stands at the location. Where the name is in the
span of the expression, as a parser has it, it is also in its text. -/
def TapMemberAt (file : SourceFile) (l : Location) : Prop :=
  ∃ f object property, Within file.root f ∧ Accesses f object property ∧
    property.text file.text = "tap" ∧ l.offset = f.start ∧ l.length = f.stop - f.start ∧
    (l.textIn file.text ≠ "" → f.start ≤ property.start → property.stop ≤ f.stop →
      ∃ front back, (l.textIn file.text).toList = front ++ "tap".toList ++ back ∧
        byteLength front = property.start - f.start)

def IsReported (policy : Policy) (oracle : TypeOracle) (file : SourceFile) (c : Place) : Prop :=
  c ∈ file.calls ∧ ∃ finding, findingAt? policy oracle file.text c = some finding

section Calls

variable {source : String} {c d anchor : Place}

theorem TapAt.parent? (h : TapAt source c anchor) :
    anchor.parent? = some c ∧ c.kind = .callExpression := by
  obtain ⟨⟨list, hcall⟩, -⟩ := h
  exact ⟨parent?_child (child?_mem hcall.callee), hcall.isCall⟩

theorem SubscribeAt.parent? (h : SubscribeAt source c anchor) :
    ∃ f, anchor.parent? = some f ∧ f.kind = .memberExpression ∧ f.parent? = some c := by
  obtain ⟨⟨f, list, object, hcall, haccess⟩, -⟩ := h
  exact ⟨f, parent?_child (child?_mem haccess.property), haccess.isMember,
    parent?_child (child?_mem hcall.callee)⟩

theorem TapAt.unique (h : TapAt source c anchor) (h' : TapAt source d anchor) : c = d :=
  Option.some.inj (h.parent?.1.symm.trans h'.parent?.1)

theorem SubscribeAt.unique (h : SubscribeAt source c anchor) (h' : SubscribeAt source d anchor) :
    c = d := by
  obtain ⟨f, hf, -, hc⟩ := h.parent?
  obtain ⟨g, hg, -, hd⟩ := h'.parent?
  obtain rfl := Option.some.inj (hf.symm.trans hg)
  exact Option.some.inj (hc.symm.trans hd)

/-- The node around an anchor is a call or a member, and that tells the two forms apart. -/
theorem TapAt.not_subscribeAt (h : TapAt source c anchor) : ¬ SubscribeAt source d anchor := by
  intro h'
  obtain ⟨hparent, hcall⟩ := h.parent?
  obtain ⟨f, hf, hmember, -⟩ := h'.parent?
  obtain rfl := Option.some.inj (hparent.symm.trans hf)
  rw [hcall] at hmember
  cases hmember

end Calls

section Reports

variable {policy : Policy} {oracle : TypeOracle} {file : SourceFile} {c d anchor : Place}

theorem isReported_iff :
    IsReported policy oracle file c ↔ ∃ place, (c, place) ∈ reports policy oracle file := by
  simp only [IsReported, reports, List.mem_filterMap, Option.map_eq_some_iff, Prod.mk.injEq]
  constructor
  · rintro ⟨hc, finding, hfinding⟩
    exact ⟨finding.anchor, c, hc, finding, hfinding, rfl, rfl⟩
  · rintro ⟨_, d, hd, finding, hfinding, rfl, -⟩
    exact ⟨hd, finding, hfinding⟩

theorem tapAt_or_subscribeAt (h : (c, anchor) ∈ reports policy oracle file) :
    TapAt file.text c anchor ∨ SubscribeAt file.text c anchor := by
  obtain ⟨-, f, list, hcall, hform, -⟩ := mem_reports.mp h
  cases hform with
  | subscribe haccess hname => exact Or.inr ⟨⟨f, list, _, hcall, haccess⟩, hname⟩
  | tapName hkind hname _ =>
    exact Or.inl ⟨⟨list, hcall⟩, name?_ofPlace_iff.mpr (Or.inl ⟨hkind, hname⟩)⟩
  | tapMember haccess hname _ =>
    exact Or.inl ⟨⟨list, hcall⟩, name?_ofPlace_iff.mpr (Or.inr ⟨_, _, haccess, hname⟩)⟩

theorem call_eq_of_anchor (h : (c, anchor) ∈ reports policy oracle file)
    (h' : (d, anchor) ∈ reports policy oracle file) : c = d := by
  rcases tapAt_or_subscribeAt h with htap | hsubscribe
  · rcases tapAt_or_subscribeAt h' with htap' | hsubscribe'
    · exact htap.unique htap'
    · exact absurd hsubscribe' htap.not_subscribeAt
  · rcases tapAt_or_subscribeAt h' with htap' | hsubscribe'
    · exact absurd hsubscribe htap'.not_subscribeAt
    · exact hsubscribe.unique hsubscribe'

theorem anchor_within (h : (c, anchor) ∈ reports policy oracle file) :
    Within file.root anchor := by
  have hc := (mem_reports.mp h).1
  rcases tapAt_or_subscribeAt h with ⟨⟨list, hcall⟩, -⟩ | ⟨⟨f, list, object, hcall, haccess⟩, -⟩
  · exact (hcall.within hc).1
  · exact (hcall.within hc).1.child (child?_mem haccess.property)

theorem anchors_nodup :
    ((reports policy oracle file).map fun report => report.2.address).Nodup := by
  have hcalls := (reports_sublist policy oracle file).nodup (preorder_nodup file.root)
  refine (List.nodup_map_iff_inj_on hcalls.of_map).mpr ?_
  rintro ⟨c, anchor⟩ h ⟨d, place⟩ h' haddress
  obtain rfl := eq_of_address_eq (anchor_within h) (anchor_within h') haddress
  rw [call_eq_of_anchor h h']

theorem mem_findings_iff {finding : Finding} :
    finding ∈ findings policy oracle file ↔
      ∃ c, (c, finding.anchor) ∈ reports policy oracle file := by
  rw [findings_eq_map_reports, List.mem_map]
  constructor
  · rintro ⟨⟨c, anchor⟩, hreport, rfl⟩
    exact ⟨c, hreport⟩
  · rintro ⟨c, hreport⟩
    refine ⟨(c, finding.anchor), hreport, ?_⟩
    cases finding with
    | mk messageId anchor => cases messageId; rfl

/-- What the rule reports is said at the anchor, in its words. -/
theorem textIn_of_report (path : Path) (h : (c, anchor) ∈ reports policy oracle file) :
    (Location.ofPlace path file.text anchor).textIn file.text = "subscribe" ∨
      (Location.ofPlace path file.text anchor).textIn file.text = "tap" ∨
      TapMemberAt file (.ofPlace path file.text anchor) := by
  have hwithin := anchor_within h
  rcases tapAt_or_subscribeAt h with ⟨-, hname⟩ | ⟨-, hname⟩
  · rcases name?_ofPlace_iff.mp hname with ⟨-, htext⟩ | ⟨object, property, haccess, htext⟩
    · exact Or.inr (Or.inl ((Location.textIn_ofPlace path file.text anchor).trans htext))
    · refine Or.inr (Or.inr ⟨anchor, object, property, hwithin, haccess, htext, rfl, rfl, ?_⟩)
      rw [Location.textIn_ofPlace]
      intro hne hstart hstop
      refine slice_eq_append rfl ?_ (congrArg String.toList htext) (by decide) hstart hstop
      exact fun hnil => hne (String.toList_eq_nil_iff.mp hnil)
  · exact Or.inl ((Location.textIn_ofPlace path file.text anchor).trans hname)

theorem existsUnique_call {finding : Finding} (h : finding ∈ findings policy oracle file) :
    ∃! c, c ∈ file.calls ∧ findingAt? policy oracle file.text c = some finding := by
  obtain ⟨c, hc, hfinding⟩ := List.mem_filterMap.mp h
  have hreport {d : Place} (hd : d ∈ file.calls)
      (h' : findingAt? policy oracle file.text d = some finding) :
      (d, finding.anchor) ∈ reports policy oracle file := by
    refine List.mem_filterMap.mpr ⟨d, hd, ?_⟩
    rw [h', Option.map_some]
  exact ⟨c, ⟨hc, hfinding⟩, fun d hd => call_eq_of_anchor (hreport hd.1 hd.2) (hreport hc hfinding)⟩

end Reports

/-- An anchor tells which call is meant: no two reports share one, and each is in exactly one of the
two ways at a reported call. -/
theorem anchors_tell_calls_apart (settings : Settings) (oracle : TypeOracle) (path : Path)
    (file : SourceFile) :
    ((findings settings.policy oracle file).map fun finding => finding.anchor.address).Nodup ∧
      (∀ finding ∈ findings settings.policy oracle file,
        (∃! c, c ∈ file.calls ∧
          findingAt? settings.policy oracle file.text c = some finding) ∧
        (((∃! c, IsReported settings.policy oracle file c ∧ TapAt file.text c finding.anchor) ∧
            ∀ c, ¬ SubscribeAt file.text c finding.anchor) ∨
          ((∃! c, IsReported settings.policy oracle file c ∧
              SubscribeAt file.text c finding.anchor) ∧
            ∀ c, ¬ TapAt file.text c finding.anchor))) ∧
      ∀ violation ∈ checkWith settings oracle path file,
        violation.location.textIn file.text = "subscribe" ∨
          violation.location.textIn file.text = "tap" ∨ TapMemberAt file violation.location := by
  refine ⟨?_, ?_, ?_⟩
  · rw [findings_eq_map_reports, List.map_map]
    exact anchors_nodup
  · intro finding h
    refine ⟨existsUnique_call h, ?_⟩
    obtain ⟨c, hreport⟩ := mem_findings_iff.mp h
    have hreported := isReported_iff.mpr ⟨_, hreport⟩
    rcases tapAt_or_subscribeAt hreport with htap | hsubscribe
    · exact Or.inl ⟨⟨c, ⟨hreported, htap⟩, fun d hd => hd.2.unique htap⟩,
        fun d => htap.not_subscribeAt⟩
    · exact Or.inr ⟨⟨c, ⟨hreported, hsubscribe⟩, fun d hd => hd.2.unique hsubscribe⟩,
        fun d hd => hd.not_subscribeAt hsubscribe⟩
  · intro violation hviolation
    obtain ⟨finding, hfinding, rfl⟩ := List.mem_map.mp hviolation
    obtain ⟨c, hreport⟩ := mem_findings_iff.mp hfinding
    exact textIn_of_report path hreport

/-- `s.pipe(r.tap(f, g)).subscribe(f, g)` -/
def tapInChain : SourceFile where
  path := ⟨"chain.ts"⟩
  dialect := .typeScript
  text := "s.pipe(r.tap(f, g)).subscribe(f, g)"
  tree := .mk { kind := .program, stop := 35 } [
    .mk { kind := .other "expression_statement", stop := 35 } [
      .mk { kind := .callExpression, stop := 35 } [
        .mk { kind := .memberExpression, field := some .function, stop := 29 } [
          .mk { kind := .callExpression, field := some .object, stop := 19 } [
            .mk { kind := .memberExpression, field := some .function, stop := 6 } [
              .mk { kind := .identifier, field := some .object, stop := 1 } [],
              .mk { kind := .other "property_identifier", field := some .property, start := 2,
                    stop := 6 } []],
            .mk { kind := .arguments, field := some .arguments, start := 6, stop := 19 } [
              .mk { kind := .callExpression, start := 7, stop := 18 } [
                .mk { kind := .memberExpression, field := some .function, start := 7,
                      stop := 12 } [
                  .mk { kind := .identifier, field := some .object, start := 7, stop := 8 } [],
                  .mk { kind := .other "property_identifier", field := some .property,
                        start := 9, stop := 12 } []],
                .mk { kind := .arguments, field := some .arguments, start := 12, stop := 18 } [
                  .mk { kind := .identifier, start := 13, stop := 14 } [],
                  .mk { kind := .identifier, start := 16, stop := 17 } []]]]],
          .mk { kind := .other "property_identifier", field := some .property, start := 20,
                stop := 29 } []],
        .mk { kind := .arguments, field := some .arguments, start := 29, stop := 35 } [
          .mk { kind := .identifier, start := 30, stop := 31 } [],
          .mk { kind := .identifier, start := 33, stop := 34 } []]]]]

/-- One of the two calls is in what the other calls. -/
theorem tapInChain_anchors :
    (checkWith {} .noTypeInfo ⟨"chain.ts"⟩ tapInChain).map
        (fun violation => violation.location.textIn tapInChain.text) = ["subscribe", "r.tap"] ∧
      (∃! c, IsReported ⟨true⟩ .noTypeInfo tapInChain c ∧
        SubscribeAt tapInChain.text c (tapInChain.placeAt 16)) ∧
      ∃! c, IsReported ⟨true⟩ .noTypeInfo tapInChain c ∧
        TapAt tapInChain.text c (tapInChain.placeAt 10) := by
  obtain ⟨-, hcalls, -⟩ := anchors_tell_calls_apart {} .noTypeInfo ⟨"chain.ts"⟩ tapInChain
  have hsubscribe : SubscribeAt tapInChain.text (tapInChain.placeAt 2) (tapInChain.placeAt 16) :=
    ⟨⟨tapInChain.placeAt 3, tapInChain.placeAt 17, tapInChain.placeAt 4, ⟨rfl, rfl, rfl, rfl⟩,
      ⟨rfl, rfl, rfl⟩⟩, by decide⟩
  have htap : TapAt tapInChain.text (tapInChain.placeAt 9) (tapInChain.placeAt 10) :=
    ⟨⟨tapInChain.placeAt 13, rfl, rfl, rfl, rfl⟩, by decide⟩
  refine ⟨by decide, ?_, ?_⟩
  · have hfirst : ⟨.forbidden, tapInChain.placeAt 16⟩ ∈ findings ⟨true⟩ .noTypeInfo tapInChain :=
      List.mem_of_getElem? (i := 0) rfl
    rcases (hcalls _ hfirst).2 with ⟨-, hnone⟩ | ⟨hone, -⟩
    · exact absurd hsubscribe (hnone _)
    · exact hone
  · have hsecond : ⟨.forbidden, tapInChain.placeAt 10⟩ ∈ findings ⟨true⟩ .noTypeInfo tapInChain :=
      List.mem_of_getElem? (i := 1) rfl
    rcases (hcalls _ hsecond).2 with ⟨hone, -⟩ | ⟨-, hnone⟩
    · exact hone
    · exact absurd htap (hnone _)

end PreferObserver

end ObserverLint
