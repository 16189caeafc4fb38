import Mathlib.Data.List.DropRight
import Mathlib.Data.List.Infix
import ObserverLint.Path

namespace ObserverLint.Path

theorem segments_ne_nil (cs : List Char) : segments cs ≠ [] := by
  cases cs with
  | nil => simp [segments]
  | cons c cs =>
    rw [segments]
    split
    · simp
    · split <;> simp

theorem segments_cons_of_ne {c : Char} (hc : c ≠ '/') {cs s : List Char} {ss : List (List Char)}
    (h : segments cs = s :: ss) : segments (c :: cs) = (c :: s) :: ss := by
  rw [segments, if_neg hc, h]

/-- A slash ends a segment. -/
theorem segments_append_slash (xs ys : List Char) :
    segments (xs ++ '/' :: ys) = segments xs ++ segments ys := by
  induction xs with
  | nil => simp [segments]
  | cons x xs ih =>
    by_cases hx : x = '/'
    · simp [segments, hx, ih]
    · obtain ⟨s, ss, hs⟩ := List.exists_cons_of_ne_nil (segments_ne_nil xs)
      rw [hs, List.cons_append] at ih
      rw [List.cons_append, segments_cons_of_ne hx ih, segments_cons_of_ne hx hs, List.cons_append]

theorem segments_of_no_slash {s : List Char} (h : '/' ∉ s) : segments s = [s] := by
  induction s with
  | nil => rfl
  | cons c s ih =>
    obtain ⟨hc, hs⟩ := not_or.mp (mt List.mem_cons.mpr h)
    exact segments_cons_of_ne (Ne.symm hc) (ih hs)

theorem no_slash_of_mem_segments {cs s : List Char} (h : s ∈ segments cs) : '/' ∉ s := by
  induction cs generalizing s with
  | nil => simp_all [segments]
  | cons c cs ih =>
    obtain ⟨t, ts, ht⟩ := List.exists_cons_of_ne_nil (segments_ne_nil cs)
    by_cases hc : c = '/'
    · rw [segments, if_pos hc] at h
      rcases List.mem_cons.mp h with rfl | hmem
      · exact List.not_mem_nil
      · exact ih hmem
    · rw [segments_cons_of_ne hc ht] at h
      rw [ht] at ih
      rcases List.mem_cons.mp h with rfl | hmem
      · exact List.not_mem_cons_of_ne_of_not_mem (Ne.symm hc) (ih List.mem_cons_self)
      · exact ih (List.mem_cons_of_mem _ hmem)

theorem eq_nil_of_segments {cs : List Char} (h : segments cs = [[]]) : cs = [] := by
  cases cs with
  | nil => rfl
  | cons c cs =>
    obtain ⟨s, ss, hs⟩ := List.exists_cons_of_ne_nil (segments_ne_nil cs)
    by_cases hc : c = '/'
    · simp [segments, hc, hs] at h
    · simp [segments_cons_of_ne hc hs] at h

theorem segments_joinSegments {ss : List (List Char)} (hne : ss ≠ []) (h : ∀ s ∈ ss, '/' ∉ s) :
    segments (joinSegments ss) = ss := by
  induction ss with
  | nil => contradiction
  | cons s ss ih =>
    obtain ⟨hs, hss⟩ := List.forall_mem_cons.mp h
    cases ss with
    | nil => exact segments_of_no_slash hs
    | cons t ss =>
      rw [joinSegments, segments_append_slash, segments_of_no_slash hs,
        ih (List.cons_ne_nil _ _) hss, List.singleton_append]

theorem standsForNothing_iff {s : List Char} : standsForNothing s = true ↔ component? s = none := by
  rw [standsForNothing, Option.isNone_iff_eq_none]

theorem filterMap_dropWhile (body : List (List Char)) :
    (body.dropWhile standsForNothing).filterMap component? = body.filterMap component? := by
  induction body with
  | nil => rfl
  | cons s body ih =>
    rw [List.dropWhile_cons]
    split
    · rename_i hs
      rw [ih, List.filterMap_cons_none (standsForNothing_iff.mp hs)]
    · rfl

theorem filterMap_trimEnd (body : List (List Char)) :
    (trimEnd body).filterMap component? = body.filterMap component? := by
  rw [trimEnd, List.filterMap_reverse, filterMap_dropWhile, List.filterMap_reverse,
    List.reverse_reverse]

theorem trimEnd_isPrefix (body : List (List Char)) : trimEnd body <+: body :=
  List.rdropWhile_prefix standsForNothing body

/-- Segments that a path can start with, if neither a slash nor a dot is to lead it. -/
def BeginsPlain (body : List (List Char)) : Prop := ∀ s ∈ body.head?, component? s ≠ none

theorem BeginsPlain.of_isPrefix {front body : List (List Char)} (h : BeginsPlain body)
    (hfront : front <+: body) : BeginsPlain front := by
  cases front with
  | nil => simp [BeginsPlain]
  | cons s front =>
    obtain ⟨rest, rfl⟩ := hfront
    simpa [BeginsPlain] using h

theorem beginsPlain_dropWhile (body : List (List Char)) :
    BeginsPlain (body.dropWhile standsForNothing) := by
  intro s hs hnone
  have hnot := List.head?_dropWhile_not standsForNothing body
  rw [Option.mem_def.mp hs] at hnot
  simp [standsForNothing, hnone] at hnot

theorem component?_eq_none_iff {s : List Char} : component? s = none ↔ s = [] ∨ s = ['.'] := by
  unfold component?
  split <;> simp_all

/-- What leads a path is read off its first segment. -/
theorem parts_cases (p : Path) :
    (∃ s ss, segments p.text.toList = [] :: s :: ss ∧ p.parts = ⟨.root, s :: ss⟩) ∨
    (∃ ss, segments p.text.toList = ['.'] :: ss ∧ p.parts = ⟨.here, ss⟩) ∨
    (segments p.text.toList = [[]] ∨ BeginsPlain (segments p.text.toList)) ∧
      p.parts = ⟨.none, segments p.text.toList⟩ := by
  unfold parts
  split
  · rename_i s ss hsegments
    exact Or.inl ⟨s, ss, hsegments, rfl⟩
  · rename_i ss hsegments
    exact Or.inr (Or.inl ⟨ss, hsegments, rfl⟩)
  · rename_i hroot hhere
    refine Or.inr (Or.inr ⟨?_, rfl⟩)
    obtain ⟨s, ss, hs⟩ := List.exists_cons_of_ne_nil (segments_ne_nil p.text.toList)
    rw [hs] at hroot hhere ⊢
    by_cases hnone : component? s = none
    · rcases component?_eq_none_iff.mp hnone with rfl | rfl
      · cases ss with
        | nil => exact Or.inl rfl
        | cons t ts => exact absurd rfl (hroot t ts)
      · exact absurd rfl (hhere ss)
    · right
      simpa [BeginsPlain] using hnone

theorem no_slash_of_mem_body {p : Path} {s : List Char} (h : s ∈ p.parts.body) : '/' ∉ s := by
  apply @no_slash_of_mem_segments p.text.toList
  rcases parts_cases p with ⟨t, ts, hsegments, hparts⟩ | ⟨ts, hsegments, hparts⟩ | ⟨-, hparts⟩
  · rw [hparts] at h
    rw [hsegments]
    exact List.mem_cons_of_mem _ h
  · rw [hparts] at h
    rw [hsegments]
    exact List.mem_cons_of_mem _ h
  · rwa [hparts] at h

theorem beginsPlain_trimEnd_body {p : Path} (h : p.parts.lead = .none) :
    BeginsPlain (trimEnd p.parts.body) := by
  rcases parts_cases p with ⟨_, _, -, hparts⟩ | ⟨_, -, hparts⟩ | ⟨hbody, hparts⟩
  · simp [hparts] at h
  · simp [hparts] at h
  · rw [hparts]
    rcases hbody with hempty | hplain
    · rw [hempty]
      intro s hs
      cases hs
    · exact hplain.of_isPrefix (trimEnd_isPrefix _)

theorem parts_of_beginsPlain {p : Path} (h : BeginsPlain (segments p.text.toList)) :
    p.parts = ⟨.none, segments p.text.toList⟩ := by
  rcases parts_cases p with ⟨_, _, hsegments, -⟩ | ⟨_, hsegments, -⟩ | ⟨-, hparts⟩
  · simp [hsegments, BeginsPlain, component?] at h
  · simp [hsegments, BeginsPlain, component?] at h
  · exact hparts

/-- Writing down parts keeps what they stand for. -/
theorem components_ofParts {lead : Lead} {body : List (List Char)} (hbody : ∀ s ∈ body, '/' ∉ s)
    (hplain : lead = .none → BeginsPlain body) :
    (ofParts ⟨lead, body⟩).components = lead.components ++ body.filterMap component? := by
  cases body with
  | nil => cases lead <;> rfl
  | cons s ss =>
    have hsegments := segments_joinSegments (List.cons_ne_nil s ss) hbody
    cases lead with
    | none =>
      have hparts : (ofParts ⟨.none, s :: ss⟩).parts = ⟨.none, s :: ss⟩ := by
        rw [parts_of_beginsPlain] <;>
          simp only [ofParts, String.toList_ofList, hsegments, hplain rfl]
      rw [components, hparts]
    | root => simp [components, parts, ofParts, segments, hsegments]
    | here =>
      have hdot : segments ('.' :: '/' :: joinSegments (s :: ss)) = ['.'] :: s :: ss := by
        simp [segments, hsegments]
      simp [components, parts, ofParts, hdot]

theorem filterMap_of_dropComponents? {cs : List Component} {ss rest : List (List Char)}
    (h : dropComponents? cs ss = some rest) :
    ss.filterMap component? = cs ++ rest.filterMap component? ∧ rest <:+ ss := by
  fun_induction dropComponents? cs ss with
  | case1 ss =>
    obtain rfl := Option.some.inj h
    exact ⟨rfl, List.suffix_refl _⟩
  | case2 => cases h
  | case3 c cs s ss hs ih =>
    obtain ⟨hcomponents, hsuffix⟩ := ih h
    rw [List.filterMap_cons_none hs]
    exact ⟨hcomponents, hsuffix.trans (List.suffix_cons _ _)⟩
  | case4 cs s ss d hs ih =>
    obtain ⟨hcomponents, hsuffix⟩ := ih h
    rw [List.filterMap_cons_some hs, hcomponents]
    exact ⟨rfl, hsuffix.trans (List.suffix_cons _ _)⟩
  | case5 => cases h

theorem exists_dropComponents? {cs : List Component} {ss : List (List Char)}
    (h : cs <+: ss.filterMap component?) : ∃ rest, dropComponents? cs ss = some rest := by
  fun_induction dropComponents? cs ss with
  | case1 ss => exact ⟨ss, rfl⟩
  | case2 => simp at h
  | case3 c cs s ss hs ih =>
    rw [List.filterMap_cons_none hs] at h
    exact ih h
  | case4 cs s ss d hs ih =>
    rw [List.filterMap_cons_some hs] at h
    exact ih (List.cons_prefix_cons.mp h).2
  | case5 c cs s ss d hs hne =>
    rw [List.filterMap_cons_some hs] at h
    exact absurd (List.cons_prefix_cons.mp h).1 hne

theorem components_of_below {cs : List Component} {p q : Path}
    (h : relativeTo?.below (dropComponents? cs p.parts.body) = some q) :
    p.parts.body.filterMap component? = cs ++ q.components := by
  obtain ⟨rest, hrest, rfl⟩ := Option.map_eq_some_iff.mp h
  obtain ⟨hcomponents, hsuffix⟩ := filterMap_of_dropComponents? hrest
  have htrimmed := trimEnd_isPrefix (rest.dropWhile standsForNothing)
  rw [components_ofParts, filterMap_trimEnd, filterMap_dropWhile, hcomponents]
  · rfl
  · intro s hs
    have hrest := (List.dropWhile_sublist _).subset (htrimmed.subset hs)
    exact no_slash_of_mem_body (hsuffix.subset hrest)
  · intro _
    exact (beginsPlain_dropWhile rest).of_isPrefix htrimmed

theorem leadComponents_tail {lead : Lead} {c : Component} {cs : List Component}
    (h : lead.components = c :: cs) : cs = [] := by
  cases lead <;> simp_all [Lead.components]

/-- A path that has a rest below a base is the base followed by the rest. -/
theorem components_of_relativeTo? {p q base : Path} (h : p.relativeTo? base = some q) :
    p.components = base.components ++ q.components := by
  unfold relativeTo? at h
  split at h
  · rename_i hbase
    obtain rfl := Option.some.inj h
    rw [hbase, components_ofParts, filterMap_trimEnd]
    · rfl
    · intro s hs
      exact no_slash_of_mem_body ((trimEnd_isPrefix _).subset hs)
    · exact beginsPlain_trimEnd_body
  · rename_i hbase hlead
    rw [components, hlead, hbase, components_of_below h]
    rfl
  · rename_i hbase hlead
    split at h
    · rename_i heq
      rw [components, hlead, hbase, heq, components_of_below h, leadComponents_tail hlead]
      rfl
    · cases h

theorem exists_relativeTo? {p base : Path} (h : base.components <+: p.components) :
    ∃ q, p.relativeTo? base = some q := by
  unfold relativeTo?
  split
  · exact ⟨_, rfl⟩
  · rename_i hbase hlead
    rw [hbase, components, hlead, List.nil_append] at h
    obtain ⟨rest, hrest⟩ := exists_dropComponents? h
    exact ⟨_, by rw [hrest]; rfl⟩
  · rename_i hbase hlead
    rw [hbase, components, hlead, leadComponents_tail hlead, List.cons_append,
      List.cons_prefix_cons, List.nil_append] at h
    obtain ⟨rest, hrest⟩ := exists_dropComponents? h.2
    exact ⟨_, by rw [if_pos h.1, hrest]; rfl⟩

theorem components_relativeTo {p base : Path} (h : base.components <+: p.components) :
    base.components ++ (p.relativeTo base).components = p.components := by
  obtain ⟨q, hq⟩ := exists_relativeTo? h
  rw [relativeTo, hq, Option.getD_some, components_of_relativeTo? hq]

/-- What is left when the end is cut ends in a segment that stands for something. -/
theorem component?_of_trimEnd {body front : List (List Char)} {last : List Char}
    (h : trimEnd body = front ++ [last]) : ∃ c, component? last = some c := by
  have hne : List.rdropWhile standsForNothing body ≠ [] := by
    change trimEnd body ≠ []
    simp [h]
  have hlast := List.rdropWhile_last_not standsForNothing body hne
  have hend : (List.rdropWhile standsForNothing body).getLast hne = last := by
    change (trimEnd body).getLast _ = last
    simp only [h, List.getLast_append_singleton]
  rw [hend] at hlast
  exact Option.ne_none_iff_exists'.mp (mt standsForNothing_iff.mpr hlast)

/-- The parent of a path lacks its last component and no other. -/
theorem components_parent? {p q : Path} (h : p.parent? = some q) :
    ∃ c, p.components = q.components ++ [c] := by
  have hbody := filterMap_trimEnd p.parts.body
  have htrimmed := trimEnd_isPrefix p.parts.body
  unfold parent? at h
  split at h
  · rename_i hlead hreverse
    obtain rfl := Option.some.inj h
    rw [List.reverse_eq_nil_iff.mp hreverse] at hbody
    rw [components, hlead, ← hbody]
    exact ⟨.here, rfl⟩
  · cases h
  · rename_i last front hreverse
    obtain rfl := Option.some.inj h
    have hsplit : trimEnd p.parts.body = front.reverse ++ [last] := by
      rw [← List.reverse_cons, ← hreverse, List.reverse_reverse]
    obtain ⟨c, hc⟩ := component?_of_trimEnd hsplit
    have hfront : trimEnd front.reverse <+: trimEnd p.parts.body := by
      rw [hsplit]
      exact (trimEnd_isPrefix _).trans (List.prefix_append _ _)
    refine ⟨c, ?_⟩
    rw [components_ofParts, filterMap_trimEnd, components, ← hbody, hsplit, List.filterMap_append,
      List.filterMap_cons_some hc, List.filterMap_nil, ← List.append_assoc]
    · intro s hs
      exact no_slash_of_mem_body (htrimmed.subset (hfront.subset hs))
    · intro hlead
      exact (beginsPlain_trimEnd_body hlead).of_isPrefix hfront

/-- The parent of a path leads to it. -/
theorem components_parent?_isPrefix {p q : Path} (h : p.parent? = some q) :
    q.components <+: p.components := by
  obtain ⟨c, hc⟩ := components_parent? h
  exact ⟨[c], hc.symm⟩

def leadingComponents (s : List Char) : List Component :=
  if s = [] then [.root] else if s = ['.'] then [.here] else (component? s).toList

theorem components_of_segments {p : Path} {s : List Char} {ss : List (List Char)}
    (hp : p.text.toList ≠ []) (h : segments p.text.toList = s :: ss) :
    p.components = leadingComponents s ++ ss.filterMap component? := by
  rcases parts_cases p with ⟨t, ts, hsegments, hparts⟩ | ⟨ts, hsegments, hparts⟩ | ⟨hbody, hparts⟩
  · obtain ⟨rfl, rfl⟩ := List.cons.inj (h.symm.trans hsegments)
    simp [components, hparts, leadingComponents, Lead.components]
  · obtain ⟨rfl, rfl⟩ := List.cons.inj (h.symm.trans hsegments)
    simp [components, hparts, leadingComponents, Lead.components]
  · rcases hbody with hempty | hplain
    · exact absurd (eq_nil_of_segments hempty) hp
    · rw [h] at hplain
      have hs : component? s ≠ none := hplain s rfl
      obtain ⟨hempty, hdot⟩ := not_or.mp (mt component?_eq_none_iff.mpr hs)
      rw [components, hparts, h, leadingComponents, if_neg hempty, if_neg hdot]
      obtain ⟨c, hc⟩ := Option.ne_none_iff_exists'.mp hs
      simp [Lead.components, hc]

/-- The segments of a path that those of a path joined to it come after. -/
def stem (p : Path) : List (List Char) :=
  if p.text.endsWith "/" then (segments p.text.toList).dropLast else segments p.text.toList

theorem endsWith_slash_iff {p : Path} :
    p.text.endsWith "/" = true ↔ p.text.toList.getLast? = some '/' := by
  rw [String.endsWith_eq_endsWith_toSlice, String.Slice.endsWith_string_iff,
    String.copy_toSlice, List.getLast?_eq_some_iff]
  exact exists_congr fun front => eq_comm

theorem exists_of_endsWith {p : Path} (h : p.text.endsWith "/" = true) :
    ∃ front, p.text.toList = front ++ ['/'] :=
  List.getLast?_eq_some_iff.mp (endsWith_slash_iff.mp h)

theorem join_after_slash {p q : Path} (hq : q.isAbsolute = false)
    (h : p.text.toList.getLast? = some '/') : p.join q = ⟨p.text ++ q.text⟩ := by
  have hends := endsWith_slash_iff.mpr h
  simp [join, hq, hends]

theorem join_after_name {p q : Path} (hq : q.isAbsolute = false) (hp : p.text.toList ≠ [])
    (h : p.text.toList.getLast? ≠ some '/') : p.join q = ⟨p.text ++ "/" ++ q.text⟩ := by
  have hends := mt endsWith_slash_iff.mp h
  have hempty : p.text.isEmpty = false := by simpa using hp
  simp [join, hq, hends, hempty]

theorem stem_of_slash {p : Path} {front : List Char} (h : p.text.toList = front ++ ['/']) :
    p.stem = segments front := by
  have hends : p.text.endsWith "/" = true := endsWith_slash_iff.mpr (by simp [h])
  rw [stem, if_pos hends, h, segments_append_slash]
  simp [segments]

/-- A path joined to another brings its own segments, in place of a last empty one if any. -/
theorem segments_join {p q : Path} (hp : p.text.toList ≠ []) (hq : q.isAbsolute = false) :
    segments (p.join q).text.toList = p.stem ++ segments q.text.toList := by
  by_cases hends : p.text.endsWith "/" = true
  · obtain ⟨front, hfront⟩ := exists_of_endsWith hends
    have hjoin : (p.join q).text.toList = front ++ '/' :: q.text.toList := by
      simp [join_after_slash hq (endsWith_slash_iff.mp hends), hfront]
    rw [hjoin, segments_append_slash, stem_of_slash hfront]
  · have hjoin : (p.join q).text.toList = p.text.toList ++ '/' :: q.text.toList := by
      simp [join_after_name hq hp (mt endsWith_slash_iff.mpr hends)]
    rw [hjoin, segments_append_slash, stem, if_neg hends]

/-- The stem of a path has its first segment, and all others that stand for something. -/
theorem exists_stem (p : Path) :
    ∃ s ss ts, segments p.text.toList = s :: ss ∧ p.stem = s :: ts ∧
      ss.filterMap component? = ts.filterMap component? := by
  by_cases hends : p.text.endsWith "/" = true
  · obtain ⟨front, hfront⟩ := exists_of_endsWith hends
    obtain ⟨s, ss, hs⟩ := List.exists_cons_of_ne_nil (segments_ne_nil front)
    refine ⟨s, ss ++ [[]], ss, ?_, ?_, ?_⟩
    · rw [hfront, segments_append_slash, hs]
      rfl
    · rw [stem_of_slash hfront, hs]
    · simp [component?]
  · obtain ⟨s, ss, hs⟩ := List.exists_cons_of_ne_nil (segments_ne_nil p.text.toList)
    exact ⟨s, ss, ss, hs, by rw [stem, if_neg hends, hs], rfl⟩

theorem components_of_lead_none {p : Path} (h : p.parts.lead = .none) :
    p.components = (segments p.text.toList).filterMap component? := by
  rcases parts_cases p with ⟨_, _, -, hparts⟩ | ⟨_, -, hparts⟩ | ⟨-, hparts⟩
  · simp [hparts] at h
  · simp [hparts] at h
  · rw [components, hparts]
    rfl

/-- A joined path that does not say where it starts adds its components. -/
theorem components_join {p q : Path} (hq : q.parts.lead = .none) :
    (p.join q).components = p.components ++ q.components := by
  have hrelative : q.isAbsolute = false := by simp [isAbsolute, hq]
  by_cases hp : p.text.toList = []
  · have hempty : p.text = "" := by simpa using hp
    have hnone : p.components = [] := by
      obtain rfl : p = ⟨""⟩ := by rw [← hempty]
      rfl
    simp [join, hrelative, hempty, hnone]
  · obtain ⟨s, ss, ts, hsegments, hstem, hsame⟩ := exists_stem p
    have hjoined := segments_join hp hrelative
    rw [hstem, List.cons_append] at hjoined
    have hne : (p.join q).text.toList ≠ [] := by
      intro hnil
      rw [hnil] at hjoined
      simp [segments, segments_ne_nil] at hjoined
    rw [components_of_segments hp hsegments, components_of_segments hne hjoined,
      components_of_lead_none hq, List.filterMap_append, hsame, List.append_assoc]

def IsName (name : String) : Prop := component? name.toList = some (.name name) ∧ '/' ∉ name.toList

theorem components_of_isName {name : String} (h : IsName name) :
    (Path.mk name).parts.lead = .none ∧ (Path.mk name).components = [.name name] := by
  have hsegments := segments_of_no_slash h.2
  have hparts : (Path.mk name).parts = ⟨.none, [name.toList]⟩ := by
    rw [parts_of_beginsPlain] <;> rw [hsegments]
    intro s hs
    obtain rfl := Option.some.inj hs
    simp [h.1]
  rw [components, hparts]
  exact ⟨rfl, by simp [Lead.components, h.1]⟩

theorem components_join_name {p : Path} {name : String} (h : IsName name) :
    (p.join ⟨name⟩).components = p.components ++ [.name name] := by
  obtain ⟨hlead, hcomponents⟩ := components_of_isName h
  rw [components_join hlead, hcomponents]

namespace Component

def label : Component → String
  | name text => text
  | _ => ""

theorem order_eq (a b : Component) :
    a.order b = (compare a.rank b.rank).then (compare a.label b.label) := by
  cases a <;> cases b <;> simp [order, rank, label, Ordering.then]

instance : Std.TransCmp order := by
  have h : order = compareLex (compareOn rank) (compareOn label) := by
    funext a b
    exact order_eq a b
  rw [h]
  infer_instance

theorem eq_of_order_eq {a b : Component} (h : a.order b = .eq) : a = b := by
  rw [order_eq, Ordering.then_eq_eq] at h
  obtain ⟨hrank, hlabel⟩ := h
  have hr := Std.LawfulEqCmp.eq_of_compare hrank
  have hl := Std.LawfulEqCmp.eq_of_compare hlabel
  cases a <;> cases b <;> simp_all [rank, label]

end Component

theorem orderComponents_eq : orderComponents = List.compareLex Component.order := by
  funext xs ys
  fun_induction orderComponents xs ys <;> simp_all [List.compareLex]
  split <;> simp_all [Ordering.then]

instance : Std.TransCmp orderComponents := by
  rw [orderComponents_eq]
  infer_instance

theorem orderComponents_eq_eq_iff {xs ys : List Component} :
    orderComponents xs ys = .eq ↔ xs = ys := by
  constructor
  · intro h
    fun_induction orderComponents xs ys with
    | case1 => rfl
    | case2 => cases h
    | case3 => cases h
    | case4 x xs y ys ih =>
      rw [Ordering.then_eq_eq] at h
      rw [Component.eq_of_order_eq h.1, ih h.2]
  · rintro rfl
    exact Std.ReflCmp.compare_self

theorem orderComponents_append_left (base xs ys : List Component) :
    orderComponents (base ++ xs) (base ++ ys) = orderComponents xs ys := by
  induction base with
  | nil => rfl
  | cons c base ih =>
    have hself : c.order c = .eq := Std.ReflCmp.compare_self
    rw [List.cons_append, List.cons_append, orderComponents, ih, hself]
    rfl

/-- Things are ordered as what a function makes of them. -/
theorem transCmp_of_map {α β : Type} {cmp : β → β → Ordering} [Std.TransCmp cmp] (f : α → β) :
    Std.TransCmp fun x y => cmp (f x) (f y) where
  eq_swap := Std.OrientedCmp.eq_swap
  isLE_trans := Std.TransCmp.isLE_trans

instance : Std.TransCmp order := transCmp_of_map components

theorem order_eq_eq_iff {p q : Path} : p.order q = .eq ↔ p.components = q.components :=
  orderComponents_eq_eq_iff

/-- Below a base, paths are in the same order as what is left of them. -/
theorem order_relativeTo {p q base : Path} (hp : base.components <+: p.components)
    (hq : base.components <+: q.components) :
    (p.relativeTo base).order (q.relativeTo base) = p.order q := by
  rw [order, order, ← components_relativeTo hp, ← components_relativeTo hq,
    orderComponents_append_left]

-- As characters `-` comes before `/`, but a shorter name comes before a longer one.
example : order ⟨"/p/a/x.ts"⟩ ⟨"/p/a-b.ts"⟩ = .lt := by decide

end ObserverLint.Path
