import ObserverLint.Proofs.Comments

namespace ObserverLint

open Text

namespace Text

theorem line?_eq_some_iff {text : String} {n : Nat} {line : List Char} :
    line? text n = some line ↔
      1 ≤ n ∧ n ≤ (lines text.toList).length ∧ (lines text.toList)[n - 1]? = some line := by
  cases n with
  | zero => simp [line?]
  | succ n =>
    rw [line?, Nat.add_sub_cancel]
    constructor
    · intro h
      obtain ⟨hlt, -⟩ := List.getElem?_eq_some_iff.mp h
      exact ⟨by omega, by omega, h⟩
    · rintro ⟨-, -, h⟩
      exact h

/-- A row does not touch the lines of other numbers. -/
theorem getElem?_lines_of_ne {whole row other rest : List Char} (hwhole : WholeRows whole)
    (hrow : '\n' ∉ row) (hother : '\n' ∉ other) (hrest : rest = [] ∨ ∃ more, rest = '\n' :: more)
    {i : Nat} (hi : i ≠ whole.count '\n') :
    (lines (whole ++ row ++ rest))[i]? = (lines (whole ++ other ++ rest))[i]? := by
  induction hwhole generalizing i with
  | nil =>
    obtain ⟨i, rfl⟩ : ∃ j, i = j + 1 := ⟨i - 1, by simp at hi; omega⟩
    have hlast (row : List Char) (h : '\n' ∉ row) : (lines row)[i + 1]? = none := by
      by_cases hnil : row = []
      · rw [hnil]
        rfl
      · rw [lines_row h hnil]
        rfl
    rcases hrest with rfl | ⟨more, rfl⟩
    · simp only [List.nil_append, List.append_nil]
      rw [hlast row hrow, hlast other hother]
    · simp only [List.nil_append]
      rw [lines_line_feed hrow, lines_line_feed hother, List.getElem?_cons_succ,
        List.getElem?_cons_succ]
  | @cons first inner hfirst _ ih =>
    rw [count_line_feed hfirst] at hi
    simp only [List.append_assoc, List.cons_append] at ih ⊢
    rw [lines_line_feed hfirst, lines_line_feed hfirst]
    cases i with
    | zero => rfl
    | succ i =>
      rw [List.getElem?_cons_succ, List.getElem?_cons_succ]
      exact ih (by omega)

/-- Editing one row leaves the lines of other numbers as they are. -/
theorem RowCut.line?_eq_of_ne {text other : String} {n k : Nat} {whole row new rest : List Char}
    (h : RowCut text.toList n whole row rest) (hnew : RowCut other.toList n whole new rest)
    (hne : k ≠ n) : line? other k = line? text k := by
  cases k with
  | zero => rfl
  | succ k =>
    have hcount : k ≠ whole.count '\n' := by
      have hnumber := h.number
      omega
    rw [line?, line?, h.split, hnew.split]
    exact getElem?_lines_of_ne h.above hnew.inside h.inside h.below hcount

end Text

namespace Allowance

open Directive

variable {text other rule : String} {line : Nat}

/-- A finding is allowed if one of the two lines exists and carries a directive for the rule. -/
theorem isAllowed_check_iff_line : (check text line rule).isAllowed = true ↔
    ∃ k, Near line k ∧ ∃ row d, line? text k = some row ∧ parse? row = some d ∧ d.Names rule := by
  rw [isAllowed_check_iff]
  simp only [← exists_onLine?_iff, onLine?, Option.bind_eq_some_iff]
  apply exists_congr
  intro k
  apply and_congr_right
  intro _
  constructor
  · rintro ⟨d, ⟨row, hrow, hparse⟩, hnames⟩
    exact ⟨row, d, hrow, hparse, hnames⟩
  · rintro ⟨row, d, hrow, hparse, hnames⟩
    exact ⟨d, ⟨row, hrow, hparse⟩, hnames⟩

theorem check_eq_of_lines (h : ∀ k, Near line k → line? other k = line? text k) :
    check other line rule = check text line rule := by
  have hbefore : onLine? other (line - 1) = onLine? text (line - 1) := by
    cases line with
    | zero => rfl
    | succ line => rw [onLine?, onLine?, h (line + 1 - 1) (Or.inr rfl)]
  have hsame : onLine? other line = onLine? text line := by
    rw [onLine?, onLine?, h line (Or.inl rfl)]
  rw [check, check, find?_covers_eq, find?_covers_eq, hbefore, hsame]

def minus? (a b : UInt64) : Option UInt64 := if b ≤ a then some (a - b) else none

/-- The word before, which for zero is zero. -/
def wordBefore (a : UInt64) : UInt64 := if a = 0 then 0 else a - 1

/-- The directive on a line whose number is a word, if the lines are numbered by the words less
one. There is no answer where a difference is no word or a line is asked for that does not
exist. -/
def directiveAt? (lines : List (List Char)) (k : UInt64) : Option (Option Directive) :=
  if k = 0 ∨ lines.length < k.toNat then some none
  else do
    let i ← minus? k 1
    let line ← lines[i.toNat]?
    some (parse? line)

def ask? (lines : List (List Char)) (rule : String) : List UInt64 → Option Allowance
  | [] => some .denied
  | k :: ks => do
    match ← directiveAt? lines k with
    | some d => if d.covers rule then some (.allowed d.reason) else ask? lines rule ks
    | none => ask? lines rule ks

def checkWord? (text : String) (line : UInt64) (rule : String) : Option Allowance :=
  ask? (lines text.toList) rule [wordBefore line, line]

theorem one_le_of_ne_zero {a : UInt64} (h : a ≠ 0) : 1 ≤ a := by
  have hpos : a.toNat ≠ 0 := fun hzero => h (UInt64.toNat_inj.mp hzero)
  rw [UInt64.le_iff_toNat_le, UInt64.toNat_one]
  omega

theorem toNat_sub_one {a : UInt64} (h : a ≠ 0) : (a - 1).toNat = a.toNat - 1 :=
  UInt64.toNat_sub_of_le _ _ (one_le_of_ne_zero h)

theorem toNat_wordBefore (a : UInt64) : (wordBefore a).toNat = a.toNat - 1 := by
  unfold wordBefore
  split
  · rename_i hzero
    rw [hzero]
    rfl
  · rename_i hne
    exact toNat_sub_one hne

/-- One line can always be asked. -/
theorem directiveAt?_eq (text : String) (k : UInt64) :
    directiveAt? (lines text.toList) k = some (onLine? text k.toNat) := by
  by_cases hout : k = 0 ∨ (lines text.toList).length < k.toNat
  · have hnone : line? text k.toNat = none := by
      rw [Option.eq_none_iff_forall_ne_some]
      intro row hrow
      obtain ⟨hone, hle, -⟩ := line?_eq_some_iff.mp hrow
      rcases hout with rfl | hlt
      · exact absurd hone (by decide)
      · omega
    rw [directiveAt?, if_pos hout, onLine?, hnone, Option.bind_none]
  · rw [not_or, not_lt] at hout
    obtain ⟨hne, hle⟩ := hout
    have hpos : k.toNat ≠ 0 := fun hzero => hne (UInt64.toNat_inj.mp hzero)
    have hlt : k.toNat - 1 < (lines text.toList).length := by omega
    have hindex : (lines text.toList)[(k - 1).toNat]? =
        some ((lines text.toList)[k.toNat - 1]) := by
      rw [toNat_sub_one hne, List.getElem?_eq_getElem hlt]
    have hline : line? text k.toNat = some ((lines text.toList)[k.toNat - 1]) :=
      line?_eq_some_iff.mpr ⟨by omega, hle, List.getElem?_eq_getElem hlt⟩
    have hin : ¬ (k = 0 ∨ (lines text.toList).length < k.toNat) := by
      rw [not_or, not_lt]
      exact ⟨hne, hle⟩
    rw [directiveAt?, if_neg hin, minus?, if_pos (one_le_of_ne_zero hne), onLine?, hline]
    simp only [Option.bind_eq_bind, Option.bind_some, hindex]

def byFirst (rule : String) (directives : List Directive) : Allowance :=
  ((directives.find? (·.covers rule)).map fun d => allowed d.reason).getD .denied

theorem check_eq_byFirst (text : String) (line : Nat) (rule : String) :
    check text line rule = byFirst rule ([line - 1, line].filterMap (onLine? text)) := by
  rw [check, byFirst]
  split
  · rename_i d hfound
    rw [hfound]
    rfl
  · rename_i hnone
    rw [hnone]
    rfl

/-- However many lines are asked, there is an answer. -/
theorem ask?_eq (text rule : String) (ks : List UInt64) :
    ask? (lines text.toList) rule ks =
      some (byFirst rule (ks.filterMap fun k => onLine? text k.toNat)) := by
  induction ks with
  | nil => rfl
  | cons k ks ih =>
    rw [ask?, directiveAt?_eq, ih]
    simp only [Option.bind_eq_bind, Option.bind_some]
    cases hfound : onLine? text k.toNat with
    | none => simp [hfound]
    | some d =>
      cases hcovers : d.covers rule with
      | true => simp [hfound, hcovers, byFirst]
      | false => simp [hfound, hcovers, byFirst]

theorem checkWord?_eq (text : String) (line : UInt64) (rule : String) :
    checkWord? text line rule = some (check text line.toNat rule) := by
  have hnumbers : [wordBefore line, line].filterMap (fun k => onLine? text k.toNat) =
      [line.toNat - 1, line.toNat].filterMap (onLine? text) := by
    simp only [List.filterMap_cons, List.filterMap_nil, toNat_wordBefore]
  rw [checkWord?, ask?_eq, hnumbers, check_eq_byFirst]

/-- A finding on a line is allowed if the line or the one before exists and carries a directive for
the rule. The answer, with its reason, depends on these two lines only, so no edit of another row
changes it; and there is an answer for every line number that is a word. -/
theorem check_asks_two_lines_only (text rule : String) :
    (∀ line, (check text line rule).isAllowed = true ↔
      ∃ k, Near line k ∧ 1 ≤ k ∧ k ≤ (lines text.toList).length ∧
        ∃ row d, (lines text.toList)[k - 1]? = some row ∧ parse? row = some d ∧ d.Names rule) ∧
    (∀ line other, (∀ k, Near line k → line? other k = line? text k) →
      check other line rule = check text line rule) ∧
    (∀ line n other whole row new rest, RowCut text.toList n whole row rest →
      RowCut other.toList n whole new rest → ¬ Near line n →
      check other line rule = check text line rule) ∧
    ∀ line : UInt64, checkWord? text line rule = some (check text line.toNat rule) := by
  refine ⟨?_, ?_, ?_, fun line => checkWord?_eq text line rule⟩
  · intro line
    simp only [isAllowed_check_iff_line, line?_eq_some_iff]
    apply exists_congr
    intro k
    constructor
    · rintro ⟨hnear, row, d, ⟨hone, hle, hrow⟩, hd⟩
      exact ⟨hnear, hone, hle, row, d, hrow, hd⟩
    · rintro ⟨hnear, hone, hle, row, d, hrow, hd⟩
      exact ⟨hnear, row, d, ⟨hone, hle, hrow⟩, hd⟩
  · intro line other h
    exact check_eq_of_lines h
  · intro line n other whole row new rest hcut hnew hfar
    apply check_eq_of_lines
    intro k hk
    apply hcut.line?_eq_of_ne hnew
    rintro rfl
    exact hfar hk

def allowedRows : List Char :=
  "// rxlint: allow(m) reason=\"r\"".toList ++ '\n' :: ("f();".toList ++ ['\n'])

def allowedThen (row : String) : String := String.ofList (allowedRows ++ row.toList)

theorem allowedThen_rowCut {row : String} (h : '\n' ∉ row.toList) :
    RowCut (allowedThen row).toList 3 allowedRows row.toList [] where
  split := by rw [allowedThen, String.toList_ofList, List.append_nil]
  above := .cons (by decide) (.cons (by decide) .nil)
  inside := h
  below := Or.inl rfl
  number := by decide

/-- Neither a third row nor a line far beyond the text has a say about the second. -/
theorem allowedThen_third_row_ignored :
    RowCut (allowedThen "g();").toList 3 allowedRows "g();".toList [] ∧
      RowCut (allowedThen "/* rxlint: allow(m) */").toList 3 allowedRows
        "/* rxlint: allow(m) */".toList [] ∧
      ¬ Near 2 3 ∧ check (allowedThen "g();") 2 "m" = .allowed (some "r") ∧
      check (allowedThen "/* rxlint: allow(m) */") 2 "m" = check (allowedThen "g();") 2 "m" ∧
      check (allowedThen "g();") (UInt64.size - 1) "m" = .denied ∧
      checkWord? (allowedThen "g();") (-1) "m" = some .denied := by
  have hold := @allowedThen_rowCut "g();" (by decide)
  have hnew := @allowedThen_rowCut "/* rxlint: allow(m) */" (by decide)
  have hfar : ¬ Near 2 3 := by
    rw [Near]
    omega
  have hasks := check_asks_two_lines_only (allowedThen "g();") "m"
  have hdenied : check (allowedThen "g();") (UInt64.size - 1) "m" = .denied := by decide +kernel
  refine ⟨hold, hnew, hfar, by decide +kernel, ?_, hdenied, ?_⟩
  · exact hasks.2.2.1 2 3 _ allowedRows _ _ [] hold hnew hfar
  · rw [hasks.2.2.2 (-1)]
    exact congrArg some hdenied

end Allowance

end ObserverLint
