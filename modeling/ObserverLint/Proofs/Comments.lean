import ObserverLint.Proofs.CursorWalk
import ObserverLint.Proofs.Resolution
import ObserverLint.Proofs.Rows
import ObserverLint.Proofs.Settlement

namespace ObserverLint

open Text

namespace Directive

def Lists (list : List Char) (name : String) : Prop :=
  name ≠ "" ∧ name.toList ∈ (split ',' list).map trim

/-- The remark reads `rxlint: allow(…)`, blanks around it aside, and lists the rule or `all`. -/
def Allows (remark : List Char) (rule : String) : Prop :=
  ∃ gap list rest,
    trim remark = "rxlint:".toList ++ gap ++ "allow(".toList ++ list ++ ')' :: rest ∧
      AllBlank gap ∧ ')' ∉ list ∧ (Lists list rule ∨ Lists list "all")

theorem Allows.of_trim_eq {remark other : List Char} {rule : String}
    (h : trim remark = trim other) (hallows : Allows remark rule) : Allows other rule := by
  rwa [Allows, h] at hallows

theorem mem_ruleNames {list : List Char} {name : String} :
    name ∈ ruleNames list ↔ Lists list name := by
  simp only [ruleNames, Lists, List.mem_map, List.mem_filter]
  constructor
  · rintro ⟨cs, ⟨⟨part, hpart, rfl⟩, hne⟩, rfl⟩
    refine ⟨?_, part, hpart, (String.toList_ofList).symm⟩
    intro hempty
    rw [String.ofList_eq_empty_iff] at hempty
    simp [hempty] at hne
  · rintro ⟨hne, part, hpart, hname⟩
    refine ⟨trim part, ⟨⟨part, hpart, rfl⟩, ?_⟩, by rw [hname, String.ofList_toList]⟩
    rw [hname]
    simpa using hne

/-- Blanks in front of a list do not change what it lists. -/
theorem lists_blank_append {lead : List Char} (h : AllBlank lead) (list : List Char)
    (name : String) : Lists (lead ++ list) name ↔ Lists list name := by
  rw [Lists, map_trim_split_blank_append (by decide) h, Lists]

theorem read?_eq_some_iff {comment : List Char} {d : Directive} :
    read? comment = some d ↔
      ∃ body allowed list rest, comment = "rxlint:".toList ++ body ∧
        trim body = "allow(".toList ++ allowed ∧ FirstAt [')'] (trim allowed) list rest ∧
        ruleNames list ≠ [] ∧ d = ⟨ruleNames list, reason? (trim rest)⟩ := by
  simp only [read?, bind, Option.bind_eq_some_iff, after?_eq_some_iff, Prod.exists,
    cut?_eq_some_iff]
  apply exists_congr
  intro body
  constructor
  · rintro ⟨hbody, allowed, hallowed, list, rest, hlist, hnames⟩
    refine ⟨allowed, list, rest, hbody, hallowed, hlist, ?_⟩
    split at hnames
    · cases hnames
    · rename_i hne
      exact ⟨hne, (Option.some.inj hnames).symm⟩
  · rintro ⟨allowed, list, rest, hbody, hallowed, hlist, hne, hd⟩
    refine ⟨hbody, allowed, hallowed, list, rest, hlist, ?_⟩
    split
    · contradiction
    · rw [hd]

theorem allows_of_read? {remark : List Char} {d : Directive} {rule : String}
    (h : read? (trim remark) = some d) (hnames : d.Names rule) : Allows remark rule := by
  obtain ⟨body, allowed, list, rest, hremark, hbody, hlist, -, rfl⟩ := read?_eq_some_iff.mp h
  obtain ⟨gap, tail, hgap, -, hsplit⟩ := exists_trim body
  obtain ⟨lead, trail, hlead, -, hinner⟩ := exists_trim allowed
  refine ⟨gap, lead ++ list, rest ++ trail ++ tail, ?_, hgap, ?_, ?_⟩
  · rw [hremark, hsplit, hbody, hinner, hlist.split]
    simp
  · rw [List.mem_append, not_or]
    exact ⟨not_mem_of_allBlank hlead (by decide), not_mem_of_firstAt_singleton hlist⟩
  · rw [lists_blank_append hlead, lists_blank_append hlead, ← mem_ruleNames, ← mem_ruleNames]
    exact hnames

theorem ruleNames_trimStart (list : List Char) : ruleNames (trimStart list) = ruleNames list := by
  obtain ⟨lead, hlead, hlist⟩ := exists_trimStart list
  conv_rhs => rw [hlist]
  rw [ruleNames, ruleNames, map_trim_split_blank_append (by decide) hlead]

/-- A remark of the form `rxlint: allow(…)` is read as a directive, if its list has a name. -/
theorem read?_of_form {gap list : List Char} (hgap : AllBlank gap) (hclose : ')' ∉ list)
    (hne : ruleNames list ≠ []) (rest : List Char) :
    read? ("rxlint:".toList ++ gap ++ "allow(".toList ++ list ++ ')' :: rest) =
      some ⟨ruleNames list, reason? (trim rest)⟩ := by
  obtain ⟨lead, hlead, hlist⟩ := exists_trimStart list
  -- Trimming takes the gap away in front, and at the end nothing before the closing bracket.
  have hbody : trim (gap ++ "allow(".toList ++ list ++ ')' :: rest) =
      "allow(".toList ++ (list ++ ')' :: trimEnd rest) := by
    have hstart : trimStart ("allow(".toList ++ list ++ ')' :: rest) =
        "allow(".toList ++ list ++ ')' :: rest := by
      rfl
    rw [List.append_assoc, List.append_assoc, trim_blank_append hgap, ← List.append_assoc, trim,
      hstart, trimEnd_append_cons (by decide), List.append_assoc]
  have hclose' : ')' ∉ trimStart list := by
    intro hmem
    rw [hlist] at hclose
    exact hclose (List.mem_append_right _ hmem)
  have hfirst : FirstAt [')'] (trim (list ++ ')' :: trimEnd rest)) (trimStart list)
      (trimEnd (trimEnd rest)) := by
    rw [trim, trimStart_append_cons (by decide), trimEnd_append_cons (by decide)]
    exact firstAt_singleton hclose'
  rw [← ruleNames_trimStart] at hne
  refine read?_eq_some_iff.mpr ⟨_, _, _, _, ?_, hbody, hfirst, hne, ?_⟩
  · simp
  · rw [ruleNames_trimStart, trim_trimEnd, trim_trimEnd]

theorem exists_read?_of_allows {remark : List Char} {rule : String} (h : Allows remark rule) :
    ∃ d, read? (trim remark) = some d ∧ d.Names rule := by
  obtain ⟨gap, list, rest, hremark, hgap, hclose, hlists⟩ := h
  rw [← mem_ruleNames, ← mem_ruleNames] at hlists
  have hne : ruleNames list ≠ [] := by
    rcases hlists with hmem | hmem <;> exact List.ne_nil_of_mem hmem
  refine ⟨⟨ruleNames list, reason? (trim rest)⟩, ?_, hlists⟩
  rw [hremark]
  exact read?_of_form hgap hclose hne rest

/-- The row holds a remark after `front`: after the first `//`, or else from the first `/*` to the
first `*/` behind it. -/
inductive Opening (row : List Char) : List Char → List Char → Prop
  | line {front remark : List Char} : FirstAt "//".toList row front remark →
      Opening row front remark
  | block {front rest : List Char} : ¬ "//".toList <:+: row → FirstAt "/*".toList row front rest →
      Opening row front (before "*/".toList rest)

theorem Opening.unique {row front remark front' remark' : List Char}
    (h : Opening row front remark) (h' : Opening row front' remark') :
    front = front' ∧ remark = remark' := by
  cases h with
  | line hfirst =>
    cases h' with
    | line hfirst' => exact hfirst.unique hfirst'
    | block hnone _ => exact absurd ⟨_, _, hfirst.split.symm⟩ hnone
  | block hnone hfirst =>
    cases h' with
    | line hfirst' => exact absurd ⟨_, _, hfirst'.split.symm⟩ hnone
    | block _ hfirst' =>
      obtain ⟨hfront, hrest⟩ := hfirst.unique hfirst'
      exact ⟨hfront, congrArg _ hrest⟩

theorem Opening.isPrefix {row front remark : List Char} (h : Opening row front remark) :
    ∃ back, row = front ++ back := by
  cases h with
  | line hfirst => exact ⟨_, hfirst.split.trans (List.append_assoc _ _ _)⟩
  | block _ hfirst => exact ⟨_, hfirst.split.trans (List.append_assoc _ _ _)⟩

theorem comment?_eq_some_iff {row comment : List Char} :
    comment? row = some comment ↔
      ∃ front remark, Opening row front remark ∧ comment = trim remark := by
  unfold comment?
  constructor
  · intro h
    split at h
    · rename_i front remark hcut
      exact ⟨front, remark, .line (cut?_eq_some_iff.mp hcut), (Option.some.inj h).symm⟩
    · rename_i hnone
      split at h
      · rename_i front rest hcut
        exact ⟨front, _, .block (cut?_eq_none_iff.mp hnone) (cut?_eq_some_iff.mp hcut),
          (Option.some.inj h).symm⟩
      · cases h
  · rintro ⟨front, remark, hopening, rfl⟩
    cases hopening with
    | line hfirst => rw [cut?_eq_some_iff.mpr hfirst]
    | block hnone hfirst => rw [cut?_eq_none_iff.mpr hnone, cut?_eq_some_iff.mpr hfirst]

def RowAllows (row : List Char) (rule : String) : Prop :=
  ∃ front remark, Opening row front remark ∧ Allows remark rule

theorem exists_parse?_iff {row : List Char} {rule : String} :
    (∃ d, parse? row = some d ∧ d.Names rule) ↔ RowAllows row rule := by
  constructor
  · rintro ⟨d, hparse, hnames⟩
    obtain ⟨comment, hcomment, hread⟩ := Option.bind_eq_some_iff.mp hparse
    obtain ⟨front, remark, hopening, rfl⟩ := comment?_eq_some_iff.mp hcomment
    exact ⟨front, remark, hopening, allows_of_read? hread hnames⟩
  · rintro ⟨front, remark, hopening, hallows⟩
    obtain ⟨d, hread, hnames⟩ := exists_read?_of_allows hallows
    refine ⟨d, ?_, hnames⟩
    rw [parse?, comment?_eq_some_iff.mpr ⟨front, remark, hopening, rfl⟩]
    exact hread

theorem comment?_concat_return (row : List Char) : comment? (row ++ ['\r']) = comment? row := by
  have hblank : AllBlank ['\r'] := List.forall_mem_singleton.mpr (by decide)
  rw [comment?, comment?, cut?_concat (by decide) (by decide)]
  cases cut? "//".toList row with
  | some found => exact congrArg some (trim_append_blank hblank found.2)
  | none =>
    rw [cut?_concat (by decide) (by decide)]
    cases cut? "/*".toList row with
    | none => rfl
    | some found =>
      apply congrArg some
      rw [before, before, cut?_concat (by decide) (by decide)]
      cases cut? "*/".toList found.2 with
      | some _ => rfl
      | none => exact trim_append_blank hblank found.2

theorem parse?_chomp (row : List Char) : parse? (chomp row) = parse? row := by
  rcases chomp_eq row with hsame | hreturn
  · rw [← hsame]
  · conv_rhs => rw [hreturn]
    rw [parse?, parse?, comment?_concat_return]

/-- A directive is read from its row; carriage returns and the end of the text play no part. -/
theorem onLine?_of_isRow {text : String} {n : Nat} {row : List Char} (h : IsRow text n row) :
    onLine? text n = parse? row := by
  obtain ⟨whole, rest, hcut⟩ := h
  rw [onLine?, hcut.line?_eq]
  by_cases hrest : rest = []
  · by_cases hrow : row = []
    · rw [hrest, hrow]
      rfl
    · rw [hrest, if_neg (by simp), if_pos hrow]
      rfl
  · rw [if_pos hrest]
    exact parse?_chomp row

def ReadOn (text : String) (n : Nat) (rule : String) : Prop :=
  ∃ row, IsRow text n row ∧ RowAllows row rule

theorem readOn_iff {text : String} {n : Nat} {row : List Char} (h : IsRow text n row)
    {rule : String} : ReadOn text n rule ↔ RowAllows row rule := by
  constructor
  · rintro ⟨other, hother, hallows⟩
    rw [← exists_parse?_iff, ← onLine?_of_isRow hother, onLine?_of_isRow h] at hallows
    exact exists_parse?_iff.mp hallows
  · exact fun hallows => ⟨row, h, hallows⟩

theorem exists_onLine?_iff {text : String} {n : Nat} {rule : String} :
    (∃ d, onLine? text n = some d ∧ d.Names rule) ↔ ReadOn text n rule := by
  constructor
  · rintro ⟨d, hline, hnames⟩
    obtain ⟨line, hsome, -⟩ := Option.bind_eq_some_iff.mp hline
    obtain ⟨row, hrow⟩ := exists_isRow hsome
    rw [onLine?_of_isRow hrow] at hline
    exact ⟨row, hrow, exists_parse?_iff.mp ⟨d, hline, hnames⟩⟩
  · rintro ⟨row, hrow, hallows⟩
    rw [onLine?_of_isRow hrow]
    exact exists_parse?_iff.mpr hallows

def Near (line n : Nat) : Prop := n = line ∨ n + 1 = line

theorem exists_governs_iff {text : String} {line : Nat} {rule : String} :
    (∃ d, Governs text line rule d) ↔ ∃ n, Near line n ∧ ReadOn text n rule := by
  simp only [← exists_onLine?_iff]
  constructor
  · rintro ⟨d, hd⟩
    cases hd with
    | before hline hnames =>
      have hnear : Near line (line - 1) := by
        rw [Near]
        omega
      exact ⟨line - 1, hnear, d, hline, hnames⟩
    | same _ hline hnames => exact ⟨line, Or.inl rfl, d, hline, hnames⟩
  · rintro ⟨n, rfl | rfl, d, hline, hnames⟩
    · rcases before_or_governs hline hnames with ⟨e, he, hnamed⟩ | hgoverns
      · exact ⟨e, .before he hnamed⟩
      · exact ⟨d, hgoverns⟩
    · exact ⟨d, .before hline hnames⟩

end Directive

theorem Allowance.isAllowed_check_iff {text : String} {line : Nat} {rule : String} :
    (check text line rule).isAllowed = true ↔
      ∃ n, Directive.Near line n ∧ Directive.ReadOn text n rule := by
  rw [← Directive.exists_governs_iff]
  by_cases h : ∃ d, Directive.Governs text line rule d
  · obtain ⟨d, hd⟩ := h
    rw [check_eq_allowed_of_governs hd]
    exact iff_of_true rfl ⟨d, hd⟩
  · rw [check_eq_denied_of_not_governs (not_exists.mp h)]
    exact iff_of_false (by decide) h

namespace SourceFile

open Directive

/-- What a comment says between its delimiters. A block ends at the first `*/`. -/
inductive Remark : List Char → List Char → Prop
  | line (inner : List Char) : Remark ("//".toList ++ inner) inner
  | block {inner : List Char} : FirstAt "*/".toList (inner ++ "*/".toList) inner [] →
      Remark ("/*".toList ++ inner ++ "*/".toList) inner

structure CommentOn (file : SourceFile) (n : Nat) (p : Place) : Prop where
  mem : p ∈ file.places
  kind : p.kind = .comment
  line : (positionAt file.text p.start).line = n

def Says (file : SourceFile) (p : Place) (rule : String) : Prop :=
  ∃ inner, Remark (p.text file.text).toList inner ∧ Allows inner rule

def Said (file : SourceFile) (line : Nat) (rule : String) : Prop :=
  ∃ n p, Near line n ∧ file.CommentOn n p ∧ file.Says p rule

/-- What opens the row is a comment, here after `front`, and it ends in the row, here before `tail`.
After a line comment only blanks are left. -/
structure OpensRow (file : SourceFile) (p : Place) (n : Nat) (row front upto tail : List Char) :
    Prop where
  isRow : IsRow file.text n row
  opening : ∃ remark, Opening row front remark
  start : positionAt file.text p.start = ⟨n, byteLength front + 1⟩
  split : row = upto ++ tail
  stop : positionAt file.text p.stop = ⟨n, byteLength upto + 1⟩
  remark : ∃ inner, Remark (p.text file.text).toList inner
  blank : "//".toList <+: (p.text file.text).toList → AllBlank tail

def Plain (file : SourceFile) (p : Place) : Prop :=
  ∃ n row front upto tail, file.OpensRow p n row front upto tail

theorem Remark.ne_nil {cs inner : List Char} (h : Remark cs inner) : cs ≠ [] := by
  cases h <;> simp

/-- Where it starts and stops tells what the row holds: the comment and something around it. -/
theorem OpensRow.row_eq {file : SourceFile} {p : Place} {n : Nat} {row front upto tail : List Char}
    (h : file.OpensRow p n row front upto tail) :
    row = front ++ (p.text file.text).toList ++ tail := by
  obtain ⟨inner, hinner⟩ := h.remark
  obtain ⟨whole, rest, hcut⟩ := h.isRow
  obtain ⟨remark, hopening⟩ := h.opening
  obtain ⟨back, hback⟩ := hopening.isPrefix
  obtain ⟨ahead, behind, htext, hstart, hstop⟩ := exists_of_slice rfl hinner.ne_nil
  change byteLength (ahead ++ (p.text file.text).toList) = p.stop at hstop
  change file.text.toList = ahead ++ (p.text file.text).toList ++ behind at htext
  -- Both ends of the comment are found again in the row, by their positions.
  have hfront : ahead = whole ++ front := by
    apply hcut.eq_of_positionAt hback (htext.trans (List.append_assoc _ _ _))
    rw [hstart]
    exact h.start
  have hupto : ahead ++ (p.text file.text).toList = whole ++ upto := by
    apply hcut.eq_of_positionAt h.split htext
    rw [hstop]
    exact h.stop
  rw [hfront, List.append_assoc] at hupto
  rw [h.split, ← List.append_cancel_left hupto]

/-- What is read from a row that a comment opens is what the comment says. -/
theorem OpensRow.trim_eq {file : SourceFile} {p : Place} {n : Nat}
    {row front upto tail inner remark : List Char} (h : file.OpensRow p n row front upto tail)
    (hinner : Remark (p.text file.text).toList inner) (hopening : Opening row front remark) :
    trim remark = trim inner := by
  have hrow := h.row_eq
  have hblank := h.blank
  generalize (p.text file.text).toList = cs at hrow hblank hinner
  cases hinner with
  | line inner =>
    cases hopening with
    | line hfirst =>
      have hrest : front ++ ("//".toList ++ remark) =
          front ++ ("//".toList ++ (inner ++ tail)) := by
        rw [← List.append_assoc, ← hfirst.split, hrow]
        simp
      rw [List.append_cancel_left (List.append_cancel_left hrest),
        trim_append_blank (hblank (List.prefix_append _ _))]
    | block hnone _ =>
      refine absurd ⟨front, inner ++ tail, ?_⟩ hnone
      rw [hrow]
      simp
  | @block inner hends =>
    cases hopening with
    | line hfirst =>
      -- The second characters of the two openings differ.
      have hsplit := hfirst.split.symm.trans hrow
      rw [List.append_assoc front, List.append_assoc front] at hsplit
      have hrest : '/' :: '/' :: remark = '/' :: '*' :: (inner ++ "*/".toList ++ tail) :=
        List.append_cancel_left hsplit
      cases hrest
    | @block rest _ hfirst =>
      have hrest : front ++ ("/*".toList ++ rest) =
          front ++ ("/*".toList ++ (inner ++ "*/".toList ++ tail)) := by
        rw [← List.append_assoc, ← hfirst.split, hrow]
        simp
      rw [List.append_cancel_left (List.append_cancel_left hrest),
        before_of_firstAt (hends.append tail)]

theorem Plain.readOn_iff {file : SourceFile} {p : Place} (h : file.Plain p) {n : Nat}
    (hp : file.CommentOn n p) {rule : String} :
    ReadOn file.text n rule ↔ file.Says p rule := by
  obtain ⟨m, row, front, upto, tail, hopens⟩ := h
  have hline : m = n := by
    have hstart := hp.line
    rwa [hopens.start] at hstart
  rw [hline] at hopens
  obtain ⟨remark, hopening⟩ := hopens.opening
  rw [Directive.readOn_iff hopens.isRow]
  constructor
  · rintro ⟨front', remark', hopening', hallows⟩
    obtain ⟨inner, hinner⟩ := hopens.remark
    rw [← (hopening.unique hopening').2] at hallows
    exact ⟨inner, hinner, hallows.of_trim_eq (hopens.trim_eq hinner hopening)⟩
  · rintro ⟨inner, hinner, hallows⟩
    exact ⟨front, remark, hopening, hallows.of_trim_eq (hopens.trim_eq hinner hopening).symm⟩

/-- A row is read as one that allows the rule, though no comment opens it and ends there, and no
comment allows the rule. -/
structure Invented (file : SourceFile) (line : Nat) (rule : String) : Prop where
  read : ∃ n, Near line n ∧ ReadOn file.text n rule ∧ ∀ p, file.CommentOn n p → ¬ file.Plain p
  unsaid : ¬ file.Said line rule

/-- A comment allows the rule, though not one that opens its row and ends there, and no row is read
as one that allows it. -/
structure Overlooked (file : SourceFile) (line : Nat) (rule : String) : Prop where
  said : ∃ n p, Near line n ∧ file.CommentOn n p ∧ file.Says p rule ∧ ¬ file.Plain p
  unread : ∀ n, Near line n → ¬ ReadOn file.text n rule

/-- On the line there are no comments but one that opens the row and ends there, and nothing else
opens the row. -/
structure Clear (file : SourceFile) (n : Nat) : Prop where
  plain : ∀ p, file.CommentOn n p → file.Plain p
  opened : ∀ row front remark, IsRow file.text n row → Opening row front remark →
    ∃ p, file.CommentOn n p

section Agreement

variable {file : SourceFile} {line : Nat} {rule : String}

theorem said_of_readOn (h : ¬ file.Invented line rule) {n : Nat} (hnear : Near line n)
    (hread : ReadOn file.text n rule) : file.Said line rule := by
  by_contra hunsaid
  have hnone : ∀ p, file.CommentOn n p → ¬ file.Plain p := by
    intro p hp hplain
    exact hunsaid ⟨n, p, hnear, hp, (hplain.readOn_iff hp).mp hread⟩
  exact h ⟨⟨n, hnear, hread, hnone⟩, hunsaid⟩

theorem exists_readOn_of_said (h : ¬ file.Overlooked line rule) (hsaid : file.Said line rule) :
    ∃ n, Near line n ∧ ReadOn file.text n rule := by
  obtain ⟨n, p, hnear, hp, hsays⟩ := hsaid
  by_contra hunread
  have hnot : ¬ file.Plain p := by
    intro hplain
    exact hunread ⟨n, hnear, (hplain.readOn_iff hp).mpr hsays⟩
  exact h ⟨⟨n, p, hnear, hp, hsays, hnot⟩, fun m hm hread => hunread ⟨m, hm, hread⟩⟩

theorem not_invented_of_clear (h : ∀ n, Near line n → file.Clear n) :
    ¬ file.Invented line rule := by
  intro hinvented
  obtain ⟨n, hnear, ⟨row, hrow, front, remark, hopening, -⟩, hnone⟩ := hinvented.read
  obtain ⟨p, hp⟩ := (h n hnear).opened row front remark hrow hopening
  exact hnone p hp ((h n hnear).plain p hp)

theorem not_overlooked_of_clear (h : ∀ n, Near line n → file.Clear n) :
    ¬ file.Overlooked line rule := by
  intro hoverlooked
  obtain ⟨n, p, hnear, hp, -, hnot⟩ := hoverlooked.said
  exact hnot ((h n hnear).plain p hp)

end Agreement

/-- Whether a rule is allowed on a line agrees with the comments of the tree unless something was
read there that no comment says, or a comment was overlooked. A comment that opens its row and ends
there is never overlooked, and where there are no others, and nothing else opens a row, nothing is
made up either. -/
theorem allowed_as_comments_say_iff (file : SourceFile) (line : Nat) (rule : String) :
    (((Allowance.check file.text line rule).isAllowed = true ↔ file.Said line rule) ↔
      ¬ file.Invented line rule ∧ ¬ file.Overlooked line rule) ∧
    (∀ n p, Near line n → file.CommentOn n p → file.Plain p → file.Says p rule →
      (Allowance.check file.text line rule).isAllowed = true) ∧
    ((∀ n, Near line n → file.Clear n) →
      ((Allowance.check file.text line rule).isAllowed = true ↔ file.Said line rule)) := by
  rw [Allowance.isAllowed_check_iff]
  have hagree : ¬ file.Invented line rule → ¬ file.Overlooked line rule →
      ((∃ n, Near line n ∧ ReadOn file.text n rule) ↔ file.Said line rule) := by
    intro hinvented hoverlooked
    refine ⟨?_, exists_readOn_of_said hoverlooked⟩
    intro hread
    obtain ⟨n, hnear, hread⟩ := hread
    exact said_of_readOn hinvented hnear hread
  refine ⟨⟨?_, fun h => hagree h.1 h.2⟩, ?_, ?_⟩
  · intro hsame
    constructor
    · intro hinvented
      obtain ⟨n, hnear, hread, -⟩ := hinvented.read
      exact hinvented.unsaid (hsame.mp ⟨n, hnear, hread⟩)
    · intro hoverlooked
      obtain ⟨m, p, hm, hp, hsays, -⟩ := hoverlooked.said
      obtain ⟨n, hnear, hread⟩ := hsame.mpr ⟨m, p, hm, hp, hsays⟩
      exact hoverlooked.unread n hnear hread
  · intro n p hnear hp hplain hsays
    exact ⟨n, hnear, (hplain.readOn_iff hp).mpr hsays⟩
  · intro hclear
    exact hagree (not_invented_of_clear hclear) (not_overlooked_of_clear hclear)

def noted : SourceFile where
  path := ⟨"noted.ts"⟩
  dialect := .typeScript
  text := "s.subscribe(a, b); // rxlint: allow(m)\n"
  tree := .mk { kind := .program, stop := 39 } [
    Oracle.subscription 0, .mk { kind := .comment, start := 19, stop := 38 } []]

theorem noted_comments :
    ∀ p ∈ noted.places, p.kind = .comment → p.start = 19 ∧ p.stop = 38 := by
  decide

def notedRow : List Char := "s.subscribe(a, b); // rxlint: allow(m)".toList

theorem noted_isRow : IsRow noted.text 1 notedRow :=
  ⟨[], ['\n'], by decide +kernel, .nil, by decide +kernel, Or.inr ⟨[], rfl⟩, rfl⟩

theorem noted_plain {p : Place} (h : p.start = 19 ∧ p.stop = 38) : noted.Plain p := by
  have htext : (p.text noted.text).toList = "//".toList ++ " rxlint: allow(m)".toList := by
    change (slice noted.text p.start p.stop).toList = _
    rw [h.1, h.2]
    decide +kernel
  refine ⟨1, notedRow, "s.subscribe(a, b); ".toList, notedRow, [], ?_⟩
  exact {
    isRow := noted_isRow
    opening := ⟨" rxlint: allow(m)".toList, .line (cut?_eq_some_iff.mp (by decide +kernel))⟩
    start := by
      rw [h.1]
      decide +kernel
    split := (List.append_nil _).symm
    stop := by
      rw [h.2]
      decide +kernel
    remark := ⟨" rxlint: allow(m)".toList, htext ▸ Remark.line _⟩
    blank := fun _ => List.forall_mem_nil _ }

theorem noted_clear {n : Nat} (h : Near 1 n) : noted.Clear n := by
  rcases h with rfl | hzero
  · refine ⟨fun p hp => noted_plain (noted_comments p hp.mem hp.kind), ?_⟩
    intro row front remark _ _
    refine ⟨noted.placeAt 14, ?_, by decide, by decide +kernel⟩
    rw [places_eq_preorder]
    exact placeAt_mem (by decide)
  · obtain rfl : n = 0 := by omega
    constructor
    · intro p hp
      have hline := hp.line
      rw [(noted_comments p hp.mem hp.kind).1] at hline
      exact absurd hline (by decide +kernel)
    · rintro row front remark ⟨whole, rest, hcut⟩ _
      cases hcut.number

theorem noted_allowed_as_said :
    (∀ n, Near 1 n → noted.Clear n) ∧
      ((Allowance.check noted.text 1 "m").isAllowed = true ↔ noted.Said 1 "m") :=
  ⟨fun _ => noted_clear, (allowed_as_comments_say_iff noted 1 "m").2.2 fun _ => noted_clear⟩

/-- The file `get("http://x").subscribe(a, b);`, in one line with a comment. -/
def linked : SourceFile where
  path := ⟨"linked.ts"⟩
  dialect := .typeScript
  text := "get(\"http://x\").subscribe(a, b); // rxlint: allow(prefer-observer) reason=\"legacy\"\n"
  tree := .mk { kind := .program, stop := 83 } [
    .mk { kind := .other "expression_statement", stop := 32 } [
      .mk { kind := .callExpression, stop := 31 } [
        .mk { kind := .memberExpression, field := some .function, stop := 25 } [
          .mk { kind := .callExpression, field := some .object, stop := 15 } [
            .mk { kind := .identifier, field := some .function, stop := 3 } [],
            .mk { kind := .arguments, field := some .arguments, start := 3, stop := 15 } [
              .mk { kind := .other "(", named := false, start := 3, stop := 4 } [],
              .mk { kind := .stringLiteral, start := 4, stop := 14 } [
                .mk { kind := .other "\"", named := false, start := 4, stop := 5 } [],
                .mk { kind := .other "string_fragment", start := 5, stop := 13 } [],
                .mk { kind := .other "\"", named := false, start := 13, stop := 14 } []],
              .mk { kind := .other ")", named := false, start := 14, stop := 15 } []]],
          .mk { kind := .other ".", named := false, start := 15, stop := 16 } [],
          .mk { kind := .other "property_identifier", field := some .property, start := 16,
                stop := 25 } []],
        .mk { kind := .arguments, field := some .arguments, start := 25, stop := 31 } [
          .mk { kind := .other "(", named := false, start := 25, stop := 26 } [],
          .mk { kind := .identifier, start := 26, stop := 27 } [],
          .mk { kind := .other ",", named := false, start := 27, stop := 28 } [],
          .mk { kind := .identifier, start := 29, stop := 30 } [],
          .mk { kind := .other ")", named := false, start := 30, stop := 31 } []]],
      .mk { kind := .other ";", named := false, start := 31, stop := 32 } []],
    .mk { kind := .comment, start := 33, stop := 82 } []]

/-- The comment is overlooked for the address in front of it. -/
theorem linked_comment_overlooked :
    linked.Said 1 "prefer-observer" ∧
      Allowance.check linked.text 1 "prefer-observer" = .denied := by
  have htext : ((linked.placeAt 22).text linked.text).toList =
      "//".toList ++ " rxlint: allow(prefer-observer) reason=\"legacy\"".toList := by
    decide +kernel
  constructor
  · refine ⟨1, linked.placeAt 22, Or.inl rfl, ⟨?_, by decide, by decide +kernel⟩, _,
      htext ▸ Remark.line _, ?_⟩
    · rw [places_eq_preorder]
      exact placeAt_mem (by decide)
    · exact ⟨" ".toList, "prefer-observer".toList, " reason=\"legacy\"".toList, by decide +kernel,
        List.forall_mem_singleton.mpr (by decide), by decide, Or.inl ⟨by decide, by decide +kernel⟩⟩
  · decide +kernel

end SourceFile

end ObserverLint
