import ObserverLint.Proofs.Comments

namespace ObserverLint.Directive

open Text

abbrev Blanks := { cs : List Char // AllBlank cs }

structure RuleName where
  chars : List Char
  ne_nil : chars ≠ []
  no_comma : ',' ∉ chars
  no_bracket : ')' ∉ chars
  begins : ∀ c, chars.head? = some c → isBlank c = false
  ends : ∀ c, chars.getLast? = some c → isBlank c = false

structure Item where
  lead : Blanks
  name : RuleName
  trail : Blanks

/-- A reason with the blanks before and after the word that announces it. -/
structure Because where
  lead : Blanks
  gap : Blanks
  reason : List Char
  no_quote : '"' ∉ reason

/-- What is written from the opening of a comment on: blanks, `rxlint:`, blanks, a list with at
least one name, and perhaps a reason. -/
structure Spelling where
  lead : Blanks
  gap : Blanks
  item : Item
  items : List Item
  because : Option Because

def Item.chars (i : Item) : List Char := i.lead.1 ++ i.name.chars ++ i.trail.1

def Because.chars (b : Because) : List Char :=
  b.lead.1 ++ "reason=".toList ++ b.gap.1 ++ '"' :: b.reason ++ ['"']

namespace Spelling

def list (s : Spelling) : List Char := [','].intercalate ((s.item :: s.items).map Item.chars)

def clause (s : Spelling) : List Char := (s.because.map Because.chars).getD []

def chars (s : Spelling) : List Char :=
  s.lead.1 ++ ("rxlint:".toList ++ s.gap.1 ++ "allow(".toList ++ s.list ++ ')' :: s.clause)

def directive (s : Spelling) : Directive where
  rules := (s.item :: s.items).map fun i => String.ofList i.name.chars
  reason := s.because.map fun b => String.ofList b.reason

def onLine (s : Spelling) (front more : List Char) : List Char :=
  front ++ "//".toList ++ (s.chars ++ more)

def inBlock (s : Spelling) (front more tail : List Char) : List Char :=
  front ++ "/*".toList ++ (s.chars ++ more ++ "*/".toList ++ tail)

structure Enclosed (s : Spelling) : Prop where
  names : ∀ i ∈ s.item :: s.items, ¬ "*/".toList <:+: i.name.chars
  reason : ∀ b, s.because = some b → ¬ "*/".toList <:+: b.reason

end Spelling

theorem Item.trim_chars (i : Item) : trim i.chars = i.name.chars := by
  rw [Item.chars, trim_append_blank i.trail.2, trim_blank_append i.lead.2,
    trim_eq_self i.name.begins i.name.ends]

theorem Item.not_mem_chars {c : Char} (hblank : isBlank c = false) {i : Item}
    (h : c ∉ i.name.chars) : c ∉ i.chars := by
  simp [Item.chars, h, not_mem_of_allBlank i.lead.2 hblank, not_mem_of_allBlank i.trail.2 hblank]

namespace Spelling

variable (s : Spelling)

theorem no_bracket_list : ')' ∉ s.list := by
  apply not_mem_intercalate (by decide)
  intro part hpart
  obtain ⟨i, -, rfl⟩ := List.mem_map.mp hpart
  exact Item.not_mem_chars (by decide) i.name.no_bracket

/-- The list is read as the names that were written. -/
theorem ruleNames_list : ruleNames s.list = s.directive.rules := by
  have hsplit : split ',' s.list = (s.item :: s.items).map Item.chars := by
    apply split_intercalate (by simp)
    intro part hpart
    obtain ⟨i, -, rfl⟩ := List.mem_map.mp hpart
    exact Item.not_mem_chars (by decide) i.name.no_comma
  have htrim : (split ',' s.list).map trim = (s.item :: s.items).map fun i => i.name.chars := by
    rw [hsplit, List.map_map]
    exact List.map_congr_left fun i _ => i.trim_chars
  have hall : ((s.item :: s.items).map fun i => i.name.chars).filter (fun name => !name.isEmpty) =
      (s.item :: s.items).map fun i => i.name.chars := by
    apply List.filter_eq_self.mpr
    intro name hname
    obtain ⟨i, -, rfl⟩ := List.mem_map.mp hname
    simp [i.name.ne_nil]
  rw [ruleNames, htrim, hall, List.map_map]
  rfl

end Spelling

/-- The quoted text after the word is read as the reason, whatever follows it. -/
theorem reason?_of_because (b : Because) (more : List Char) :
    reason? (trim (b.chars ++ more)) = some (String.ofList b.reason) := by
  have hsplit : b.chars ++ more =
      b.lead.1 ++ ("reason=".toList ++ (b.gap.1 ++ '"' :: b.reason) ++ '"' :: more) := by
    simp [Because.chars]
  have hstart : trimStart ("reason=".toList ++ (b.gap.1 ++ '"' :: b.reason) ++ '"' :: more) =
      "reason=".toList ++ (b.gap.1 ++ '"' :: b.reason) ++ '"' :: more := by
    rfl
  -- The closing quote keeps the end in place, here and after the word.
  have htrim : trim (b.chars ++ more) =
      "reason=".toList ++ (b.gap.1 ++ '"' :: b.reason ++ '"' :: trimEnd more) := by
    rw [hsplit, trim_blank_append b.lead.2, trim, hstart, trimEnd_append_cons (by decide),
      List.append_assoc]
  have hquoted : trim (b.gap.1 ++ '"' :: b.reason ++ '"' :: trimEnd more) =
      ['"'] ++ (b.reason ++ '"' :: trimEnd (trimEnd more)) := by
    have hquote : trimStart ('"' :: b.reason ++ '"' :: trimEnd more) =
        '"' :: b.reason ++ '"' :: trimEnd more := by
      rfl
    rw [List.append_assoc, trim_blank_append b.gap.2, trim, hquote, trimEnd_append_cons (by decide)]
    rfl
  have hcut : cut? ['"'] (b.reason ++ '"' :: trimEnd (trimEnd more)) =
      some (b.reason, trimEnd (trimEnd more)) :=
    cut?_eq_some_iff.mpr (firstAt_singleton b.no_quote)
  rw [reason?, htrim, after?_eq_some_iff.mpr rfl]
  simp only [Option.bind_eq_bind, Option.bind_some, hquoted, after?_eq_some_iff.mpr rfl, hcut]

/-- Without a reason nothing but blanks may follow, with one anything may. -/
def Spelling.AllowsMore (s : Spelling) (more : List Char) : Prop :=
  s.because = none → AllBlank more

namespace Spelling

variable {s : Spelling} {front more tail : List Char}

theorem reason?_clause (h : s.AllowsMore more) :
    reason? (trim (s.clause ++ more)) = s.directive.reason := by
  cases hbecause : s.because with
  | none =>
    have hnil : trim (s.clause ++ more) = [] := by
      rw [clause, hbecause, Option.map_none, Option.getD_none, List.nil_append, trim,
        trimStart_eq_nil (h hbecause)]
      rfl
    rw [hnil, directive, hbecause]
    rfl
  | some b =>
    rw [clause, hbecause, Option.map_some, Option.getD_some, reason?_of_because, directive,
      hbecause]
    rfl

/-- The remark is read as what it says. -/
theorem read?_chars (h : s.AllowsMore more) :
    read? (trim (s.chars ++ more)) = some s.directive := by
  have hsplit : s.chars ++ more = s.lead.1 ++
      ("rxlint:".toList ++ s.gap.1 ++ "allow(".toList ++ s.list ++ ')' :: (s.clause ++ more)) := by
    simp [chars]
  have hstart : trimStart ("rxlint:".toList ++ s.gap.1 ++ "allow(".toList ++ s.list ++
        ')' :: (s.clause ++ more)) =
      "rxlint:".toList ++ s.gap.1 ++ "allow(".toList ++ s.list ++ ')' :: (s.clause ++ more) := by
    rfl
  have hne : ruleNames s.list ≠ [] := by
    rw [ruleNames_list]
    exact List.cons_ne_nil _ _
  rw [hsplit, trim_blank_append s.lead.2, trim, hstart, trimEnd_append_cons (by decide),
    read?_of_form s.gap.2 s.no_bracket_list hne, ruleNames_list, trim_trimEnd, reason?_clause h]

theorem Enclosed.item (h : s.Enclosed) {i : Item} (hi : i ∈ s.item :: s.items) :
    ¬ "*/".toList <:+: i.chars := by
  have hlead : '*' ∉ i.lead.1 := not_mem_of_allBlank i.lead.2 (by decide)
  have htrail : '/' ∉ i.trail.1 := not_mem_of_allBlank i.trail.2 (by decide)
  intro hends
  rw [Item.chars, List.append_assoc] at hends
  have hafter : "*/".toList <:+: i.name.chars ++ i.trail.1 :=
    (infix_append_of_not_mem hlead).mp hends
  exact h.names i hi ((@infix_append_of_not_mem_right _ ['*'] _ _ htrail).mp hafter)

theorem Enclosed.list (h : s.Enclosed) : ¬ "*/".toList <:+: s.list := by
  apply not_infix_intercalate (by decide) (by decide)
  intro part hpart
  obtain ⟨i, hi, rfl⟩ := List.mem_map.mp hpart
  exact h.item hi

theorem Enclosed.clause (h : s.Enclosed) (hmore : ¬ "*/".toList <:+: more) :
    ¬ "*/".toList <:+: s.clause ++ more := by
  cases hbecause : s.because with
  | none =>
    rw [Spelling.clause, hbecause]
    exact hmore
  | some b =>
    have hlead : '*' ∉ b.lead.1 := not_mem_of_allBlank b.lead.2 (by decide)
    have hgap : '*' ∉ b.gap.1 := not_mem_of_allBlank b.gap.2 (by decide)
    have hahead : '*' ∉ b.lead.1 ++ "reason=".toList ++ b.gap.1 ++ ['"'] := by simp [hlead, hgap]
    have hsplit : s.clause ++ more =
        b.lead.1 ++ "reason=".toList ++ b.gap.1 ++ ['"'] ++ (b.reason ++ '"' :: more) := by
      simp [Spelling.clause, hbecause, Because.chars]
    intro hends
    rw [hsplit] at hends
    have hquoted : "*/".toList <:+: b.reason ++ '"' :: more :=
      (infix_append_of_not_mem hahead).mp hends
    rcases (infix_append_cons_iff (by decide) (by decide)).mp hquoted with hreason | hafter
    · exact h.reason b hbecause hreason
    · exact hmore hafter

/-- An enclosed directive does not end its block early. -/
theorem Enclosed.chars (h : s.Enclosed) (hmore : ¬ "*/".toList <:+: more) :
    ¬ "*/".toList <:+: s.chars ++ more := by
  have hlead : '*' ∉ s.lead.1 := not_mem_of_allBlank s.lead.2 (by decide)
  have hgap : '*' ∉ s.gap.1 := not_mem_of_allBlank s.gap.2 (by decide)
  have hahead : '*' ∉ s.lead.1 ++ "rxlint:".toList ++ s.gap.1 ++ "allow(".toList := by
    simp [hlead, hgap]
  have hsplit : s.chars ++ more = s.lead.1 ++ "rxlint:".toList ++ s.gap.1 ++ "allow(".toList ++
      (s.list ++ ')' :: (s.clause ++ more)) := by
    simp [Spelling.chars]
  intro hends
  rw [hsplit] at hends
  have hlisted : "*/".toList <:+: s.list ++ ')' :: (s.clause ++ more) :=
    (infix_append_of_not_mem hahead).mp hends
  rcases (infix_append_cons_iff (by decide) (by decide)).mp hlisted with hlist | hclause
  · exact h.list hlist
  · exact h.clause hmore hclause

theorem opening_inBlock (h : s.Enclosed) (hline : ¬ "//".toList <:+: s.inBlock front more tail)
    (hfront : ¬ "/*".toList <:+: front) (hmore : ¬ "*/".toList <:+: more) :
    Opening (s.inBlock front more tail) front (s.chars ++ more) := by
  have hopens : FirstAt "/*".toList (s.inBlock front more tail) front
      (s.chars ++ more ++ "*/".toList ++ tail) :=
    firstAt_pair (by decide) hfront _
  have hcloses : FirstAt "*/".toList (s.chars ++ more ++ "*/".toList ++ tail) (s.chars ++ more)
      tail :=
    firstAt_pair (by decide) (h.chars hmore) _
  have hopening := Opening.block hline hopens
  rwa [before_of_firstAt hcloses] at hopening

theorem parse?_of_opening {row : List Char} (hallows : s.AllowsMore more)
    (h : Opening row front (s.chars ++ more)) : parse? row = some s.directive := by
  rw [parse?, comment?_eq_some_iff.mpr ⟨front, _, h, rfl⟩]
  exact read?_chars hallows

end Spelling

/-- A directive is read as the names and the reason that were written, in their order and character
by character: behind the first `//` of the line, and inside the first block of a line without one,
unless a name or the reason closes the block. -/
theorem spelled_directive_reads_back (s : Spelling) (front more tail : List Char)
    (hallows : s.AllowsMore more) :
    (FirstAt "//".toList (s.onLine front more) front (s.chars ++ more) →
      parse? (s.onLine front more) = some s.directive) ∧
    (s.Enclosed → ¬ "//".toList <:+: s.inBlock front more tail → ¬ "/*".toList <:+: front →
      ¬ "*/".toList <:+: more → parse? (s.inBlock front more tail) = some s.directive) := by
  constructor
  · intro hfirst
    exact Spelling.parse?_of_opening hallows (.line hfirst)
  · intro henclosed hline hfront hmore
    exact Spelling.parse?_of_opening hallows
      (Spelling.opening_inBlock henclosed hline hfront hmore)

def oneBlank : Blanks := ⟨[' '], by decide⟩

def noBlank : Blanks := ⟨[], by decide⟩

def bracketName : RuleName where
  chars := ['a', '*', 'b', '(']
  ne_nil := by decide
  no_comma := by decide
  no_bracket := by decide
  begins := by rintro c ⟨⟩; rfl
  ends := by rintro c ⟨⟩; rfl

def blankName : RuleName where
  chars := ['m', ' ', '1']
  ne_nil := by decide
  no_comma := by decide
  no_bracket := by decide
  begins := by rintro c ⟨⟩; rfl
  ends := by rintro c ⟨⟩; rfl

/-- Names and a reason with characters that mean something elsewhere. -/
def awkward : Spelling where
  lead := ⟨['\t', '\u3000'], by decide⟩
  gap := noBlank
  item := ⟨oneBlank, bracketName, noBlank⟩
  items := [⟨noBlank, blankName, oneBlank⟩]
  because := some ⟨noBlank, oneBlank, " see (a), b* ".toList, by decide⟩

theorem awkward_reads_back :
    awkward.AllowsMore " more".toList ∧ awkward.Enclosed ∧
      awkward.directive = ⟨["a*b(", "m 1"], some " see (a), b* "⟩ ∧
      awkward.onLine "f(a / b); ".toList " more".toList =
        "f(a / b); //\t\u3000rxlint:allow( a*b(,m 1 )reason= \" see (a), b* \" more".toList ∧
      parse? (awkward.onLine "f(a / b); ".toList " more".toList) = some awkward.directive ∧
      parse? (awkward.inBlock "f(a / b); ".toList " more *".toList " g(); */".toList) =
        some awkward.directive := by
  have hline : FirstAt "//".toList (awkward.onLine "f(a / b); ".toList " more".toList)
      "f(a / b); ".toList (awkward.chars ++ " more".toList) :=
    firstAt_of_cut? (by decide +kernel)
  have henclosed : awkward.Enclosed := by
    refine ⟨?_, ?_⟩
    · intro i hi
      have hnone : ∀ j ∈ awkward.item :: awkward.items, cut? "*/".toList j.name.chars = none := by
        decide +kernel
      exact cut?_eq_none_iff.mp (hnone i hi)
    · rintro b ⟨⟩
      exact cut?_eq_none_iff.mp (by decide +kernel)
  have hallows (more : List Char) : awkward.AllowsMore more := by
    rintro ⟨⟩
  refine ⟨hallows _, henclosed, by decide +kernel, by decide +kernel, ?_, ?_⟩
  · exact (spelled_directive_reads_back awkward _ _ [] (hallows _)).1 hline
  · exact (spelled_directive_reads_back awkward _ _ _ (hallows _)).2 henclosed
      (cut?_eq_none_iff.mp (by decide +kernel)) (cut?_eq_none_iff.mp (by decide +kernel))
      (cut?_eq_none_iff.mp (by decide +kernel))

end ObserverLint.Directive
