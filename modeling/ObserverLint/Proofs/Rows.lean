import ObserverLint.Proofs.Occurrences
import ObserverLint.Text.Bytes
import ObserverLint.Text.Lines

namespace ObserverLint.Text

@[simp] theorem byteLength_append (cs ds : List Char) :
    byteLength (cs ++ ds) = byteLength cs + byteLength ds := by
  induction cs with
  | nil => simp [byteLength]
  | cons c cs ih =>
    rw [List.cons_append, byteLength, byteLength, ih]
    omega

theorem eq_nil_of_byteLength {cs : List Char} (h : byteLength cs = 0) : cs = [] := by
  cases cs with
  | nil => rfl
  | cons c cs =>
    have hpos := c.utf8Size_pos
    rw [byteLength] at h
    omega

/-- As many bytes from the front of one text are the same characters. -/
theorem append_inj_of_byteLength {cs ds front back : List Char} (h : cs ++ ds = front ++ back)
    (hbytes : byteLength cs = byteLength front) : cs = front ∧ ds = back := by
  induction cs generalizing front with
  | nil =>
    obtain rfl := eq_nil_of_byteLength hbytes.symm
    exact ⟨rfl, h⟩
  | cons c cs ih =>
    cases front with
    | nil => cases eq_nil_of_byteLength hbytes
    | cons d front =>
      obtain ⟨rfl, htail⟩ := List.cons.inj h
      rw [byteLength, byteLength] at hbytes
      obtain ⟨rfl, hback⟩ := ih htail (by omega)
      exact ⟨rfl, hback⟩

/-- Of two beginnings of one text, the one with more bytes goes on from the other. -/
theorem isPrefix_of_byteLength_le {cs ds front back : List Char} (h : cs ++ ds = front ++ back)
    (hbytes : byteLength front ≤ byteLength cs) : front <+: cs := by
  rcases List.append_eq_append_iff.mp h with ⟨rest, rfl, -⟩ | ⟨rest, rfl, -⟩
  · have hrest : rest = [] := by
      rw [byteLength_append] at hbytes
      exact eq_nil_of_byteLength (by omega)
    rw [hrest, List.append_nil]
  · exact List.prefix_append _ _

theorem dropBytes?_eq_some {n : Nat} {cs rest : List Char} (h : dropBytes? n cs = some rest) :
    ∃ front, cs = front ++ rest ∧ byteLength front = n := by
  induction cs generalizing n with
  | nil =>
    cases n with
    | zero => exact ⟨[], Option.some.inj h, rfl⟩
    | succ n => cases h
  | cons c cs ih =>
    cases n with
    | zero => exact ⟨[], Option.some.inj h, rfl⟩
    | succ n =>
      rw [dropBytes?] at h
      by_cases hfits : c.utf8Size ≤ n + 1
      · rw [if_pos hfits] at h
        obtain ⟨front, hfront, hbytes⟩ := ih h
        refine ⟨c :: front, by rw [hfront, List.cons_append], ?_⟩
        rw [byteLength]
        omega
      · rw [if_neg hfits] at h
        cases h

theorem takeBytes?_eq_some {n : Nat} {cs front : List Char} (h : takeBytes? n cs = some front) :
    ∃ rest, cs = front ++ rest ∧ byteLength front = n := by
  induction cs generalizing n front with
  | nil =>
    cases n with
    | zero => exact ⟨[], by rw [← Option.some.inj h]; rfl, by rw [← Option.some.inj h]; rfl⟩
    | succ n => cases h
  | cons c cs ih =>
    cases n with
    | zero => exact ⟨c :: cs, by rw [← Option.some.inj h]; rfl, by rw [← Option.some.inj h]; rfl⟩
    | succ n =>
      rw [takeBytes?] at h
      by_cases hfits : c.utf8Size ≤ n + 1
      · rw [if_pos hfits] at h
        obtain ⟨inner, hinner, rfl⟩ := Option.map_eq_some_iff.mp h
        obtain ⟨rest, hrest, hbytes⟩ := ih hinner
        refine ⟨rest, by rw [hrest, List.cons_append], ?_⟩
        rw [byteLength]
        omega
      · rw [if_neg hfits] at h
        cases h

/-- A slice that is not empty stands in the text where it is said to. -/
theorem exists_of_slice {text : String} {start stop : Nat} {cs : List Char}
    (h : (slice text start stop).toList = cs) (hne : cs ≠ []) :
    ∃ ahead behind, text.toList = ahead ++ cs ++ behind ∧ byteLength ahead = start ∧
      byteLength (ahead ++ cs) = stop := by
  unfold slice at h
  split at h
  · rename_i found hfound
    obtain ⟨later, hdrop, htake⟩ := Option.bind_eq_some_iff.mp hfound
    obtain ⟨ahead, hahead, hstart⟩ := dropBytes?_eq_some hdrop
    obtain ⟨behind, hbehind, hlength⟩ := takeBytes?_eq_some htake
    rw [String.toList_ofList] at h
    rw [h] at hbehind hlength
    refine ⟨ahead, behind, by rw [hahead, hbehind, List.append_assoc], hstart, ?_⟩
    have hpos : byteLength cs ≠ 0 := fun hzero => hne (eq_nil_of_byteLength hzero)
    rw [byteLength_append]
    omega
  · exact absurd h.symm hne

inductive WholeRows : List Char → Prop
  | nil : WholeRows []
  | cons {row rest : List Char} : '\n' ∉ row → WholeRows rest → WholeRows (row ++ '\n' :: rest)

theorem count_line_feed {row : List Char} (h : '\n' ∉ row) (rest : List Char) :
    (row ++ '\n' :: rest).count '\n' = rest.count '\n' + 1 := by
  rw [List.count_append, List.count_eq_zero_of_not_mem h, List.count_cons_self]
  omega

/-- Every text is some whole rows and a last one without a line feed. -/
theorem exists_wholeRows (cs : List Char) :
    ∃ whole row, cs = whole ++ row ∧ WholeRows whole ∧ '\n' ∉ row := by
  induction cs with
  | nil => exact ⟨[], [], rfl, .nil, List.not_mem_nil⟩
  | cons c cs ih =>
    obtain ⟨whole, row, rfl, hwhole, hrow⟩ := ih
    by_cases hc : c = '\n'
    · rw [hc]
      exact ⟨'\n' :: whole, row, rfl, .cons List.not_mem_nil hwhole, hrow⟩
    · cases hwhole with
      | nil =>
        refine ⟨[], c :: row, rfl, .nil, ?_⟩
        exact List.not_mem_cons_of_ne_of_not_mem (fun h => hc h.symm) hrow
      | @cons first rest hfirst hrest =>
        refine ⟨(c :: first) ++ '\n' :: rest, row, rfl, .cons ?_ hrest, hrow⟩
        exact List.not_mem_cons_of_ne_of_not_mem (fun h => hc h.symm) hfirst

theorem append_line_feed_inj {row row' rest rest' : List Char} (h : '\n' ∉ row) (h' : '\n' ∉ row')
    (heq : row ++ '\n' :: rest = row' ++ '\n' :: rest') : row = row' ∧ rest = rest' := by
  have hfirst : FirstAt ['\n'] (row ++ '\n' :: rest) row rest := firstAt_singleton h
  rw [heq] at hfirst
  exact hfirst.unique (firstAt_singleton h')

/-- So many whole rows from the front of a text are always the same. -/
theorem WholeRows.unique {whole other rest rest' : List Char} (h : WholeRows whole)
    (h' : WholeRows other) (heq : whole ++ rest = other ++ rest')
    (hcount : whole.count '\n' = other.count '\n') : whole = other := by
  induction h generalizing other with
  | nil =>
    cases h' with
    | nil => rfl
    | cons hrow _ =>
      rw [count_line_feed hrow] at hcount
      cases hcount
  | cons hrow _ ih =>
    cases h' with
    | nil =>
      rw [count_line_feed hrow] at hcount
      cases hcount
    | cons hrow' hothers =>
      rw [count_line_feed hrow, count_line_feed hrow'] at hcount
      rw [List.append_assoc, List.append_assoc, List.cons_append, List.cons_append] at heq
      obtain ⟨rfl, htail⟩ := append_line_feed_inj hrow hrow' heq
      rw [ih hothers htail (by omega)]

namespace Position

theorem advance_append (p : Position) (cs ds : List Char) (n : Nat) :
    p.advance (byteLength cs + n) (cs ++ ds) = (p.advance (byteLength cs) cs).advance n ds := by
  induction cs generalizing p with
  | nil => simp [byteLength, advance]
  | cons c cs ih =>
    have hover : ¬ c.utf8Size + byteLength cs + n < c.utf8Size := by omega
    have hover' : ¬ c.utf8Size + byteLength cs < c.utf8Size := by omega
    have hleft : c.utf8Size + byteLength cs + n - c.utf8Size = byteLength cs + n := by omega
    have hleft' : c.utf8Size + byteLength cs - c.utf8Size = byteLength cs := by omega
    rw [List.cons_append, byteLength, advance, advance, if_neg hover, if_neg hover', hleft, hleft']
    by_cases hc : c = '\n'
    · rw [if_pos hc, if_pos hc, ih]
    · rw [if_neg hc, if_neg hc, ih]

/-- Inside a row only the column goes on. -/
theorem advance_within_row (p : Position) {row : List Char} (h : '\n' ∉ row) {n : Nat}
    (hn : n ≤ byteLength row) (rest : List Char) :
    p.advance n (row ++ rest) = ⟨p.line, p.column + n⟩ := by
  induction row generalizing p n with
  | nil =>
    obtain rfl : n = 0 := Nat.le_zero.mp hn
    cases rest with
    | nil => rfl
    | cons c rest => rw [List.nil_append, advance, if_pos c.utf8Size_pos]
  | cons c row ih =>
    have hc : c ≠ '\n' := fun heq => h (heq ▸ List.mem_cons_self)
    have hrow : '\n' ∉ row := fun hmem => h (List.mem_cons_of_mem _ hmem)
    rw [List.cons_append, advance]
    by_cases hinside : n < c.utf8Size
    · rw [if_pos hinside]
    · have hleft : n - c.utf8Size ≤ byteLength row := by
        rw [byteLength] at hn
        omega
      have hcolumn : p.column + c.utf8Size + (n - c.utf8Size) = p.column + n := by omega
      rw [if_neg hinside, if_neg hc, ih _ hrow hleft, hcolumn]

theorem advance_row (p : Position) {row : List Char} (h : '\n' ∉ row) :
    p.advance (byteLength row) row = ⟨p.line, p.column + byteLength row⟩ := by
  simpa only [List.append_nil] using advance_within_row p h (Nat.le_refl _) []

theorem advance_line_feed (p : Position) (rest : List Char) :
    p.advance (byteLength ('\n' :: rest)) ('\n' :: rest) =
      (⟨p.line + 1, 1⟩ : Position).advance (byteLength rest) rest := by
  have hover : ¬ ('\n').utf8Size + byteLength rest < ('\n').utf8Size := by omega
  rw [byteLength, advance, if_neg hover, if_pos rfl, Nat.add_sub_cancel_left]

theorem advance_wholeRows (line : Nat) {whole : List Char} (h : WholeRows whole) :
    (⟨line, 1⟩ : Position).advance (byteLength whole) whole = ⟨line + whole.count '\n', 1⟩ := by
  induction h generalizing line with
  | nil => rfl
  | @cons row rest hrow _ ih =>
    have hline : line + 1 + rest.count '\n' = line + (rest.count '\n' + 1) := by omega
    rw [byteLength_append, advance_append, advance_row _ hrow, advance_line_feed, ih,
      count_line_feed hrow]
    exact congrArg (Position.mk · 1) hline

end Position

/-- A position is told by the rows before it and by how far it is in its own row. -/
theorem positionAt_within_row {text : String} {whole row rest : List Char}
    (htext : text.toList = whole ++ row ++ rest) (hwhole : WholeRows whole) (hrow : '\n' ∉ row)
    {n : Nat} (hn : n ≤ byteLength row) :
    positionAt text (byteLength whole + n) = ⟨whole.count '\n' + 1, n + 1⟩ := by
  rw [positionAt, htext, List.append_assoc, Position.advance_append, Position.start,
    Position.advance_wholeRows 1 hwhole, Position.advance_within_row _ hrow hn, Nat.add_comm 1,
    Nat.add_comm 1]

theorem positionAt_append {text : String} {whole front back : List Char}
    (htext : text.toList = whole ++ front ++ back) (hwhole : WholeRows whole)
    (hfront : '\n' ∉ front) :
    positionAt text (byteLength (whole ++ front)) =
      ⟨whole.count '\n' + 1, byteLength front + 1⟩ := by
  rw [byteLength_append, positionAt_within_row htext hwhole hfront (Nat.le_refl _)]

/-- `row` is row number `n` of the characters, between `whole` and `rest`. -/
structure RowCut (cs : List Char) (n : Nat) (whole row rest : List Char) : Prop where
  split : cs = whole ++ row ++ rest
  above : WholeRows whole
  inside : '\n' ∉ row
  below : rest = [] ∨ ∃ more, rest = '\n' :: more
  number : whole.count '\n' + 1 = n

def IsRow (text : String) (n : Nat) (row : List Char) : Prop :=
  ∃ whole rest, RowCut text.toList n whole row rest

/-- There is one place only with a given position. -/
theorem RowCut.eq_of_positionAt {text : String} {n : Nat}
    {whole row rest front back ahead behind : List Char} (h : RowCut text.toList n whole row rest)
    (hrow : row = front ++ back) (htext : text.toList = ahead ++ behind)
    (hposition : positionAt text (byteLength ahead) = ⟨n, byteLength front + 1⟩) :
    ahead = whole ++ front := by
  obtain ⟨whole', front', rfl, hwhole', hfront'⟩ := exists_wholeRows ahead
  rw [positionAt_append htext hwhole' hfront'] at hposition
  obtain ⟨hline, hcolumn⟩ := Position.mk.inj hposition
  have hsplit : whole' ++ (front' ++ behind) = whole ++ (front ++ (back ++ rest)) := by
    rw [← List.append_assoc, ← htext, h.split, hrow]
    simp
  have hnumber := h.number
  obtain rfl : whole' = whole := hwhole'.unique h.above hsplit (by omega)
  obtain ⟨rfl, -⟩ := append_inj_of_byteLength (List.append_cancel_left hsplit) (by omega)
  rfl

def chomp : List Char → List Char
  | [] => []
  | ['\r'] => []
  | c :: cs => c :: chomp cs

theorem chomp_eq (row : List Char) : row = chomp row ∨ row = chomp row ++ ['\r'] := by
  fun_induction chomp row with
  | case1 => exact Or.inl rfl
  | case2 => exact Or.inr rfl
  | case3 c cs _ ih =>
    rcases ih with hsame | hreturn
    · exact Or.inl (congrArg (c :: ·) hsame)
    · exact Or.inr (congrArg (c :: ·) hreturn)

theorem chomp_cons {c : Char} {cs : List Char} (h : c ≠ '\r' ∨ cs ≠ []) :
    chomp (c :: cs) = c :: chomp cs := by
  rw [chomp]
  rintro rfl rfl
  rcases h with h | h <;> exact h rfl

/-- The first line goes on to the left, unless a line feed or the carriage return in front of one
is put there. -/
theorem lines_cons {c : Char} {cs line : List Char} {more : List (List Char)} (hc : c ≠ '\n')
    (hreturn : c ≠ '\r' ∨ cs.head? ≠ some '\n') (h : lines cs = line :: more) :
    lines (c :: cs) = (c :: line) :: more := by
  rw [lines.eq_4 c cs _ hc, h]
  rintro rest rfl rfl
  rcases hreturn with hne | hne <;> exact hne rfl

theorem lines_row {row : List Char} (h : '\n' ∉ row) (hne : row ≠ []) : lines row = [row] := by
  induction row with
  | nil => exact absurd rfl hne
  | cons c row ih =>
    have hc : c ≠ '\n' := fun heq => h (heq ▸ List.mem_cons_self)
    have hrow : '\n' ∉ row := fun hmem => h (List.mem_cons_of_mem _ hmem)
    by_cases hnil : row = []
    · rw [hnil, lines.eq_4 c [] (fun _ _ hcons => nomatch hcons) hc]
      rfl
    · apply lines_cons hc (Or.inr _) (ih hrow hnil)
      exact fun hhead => hrow (List.mem_of_mem_head? hhead)

theorem lines_line_feed {row : List Char} (h : '\n' ∉ row) (rest : List Char) :
    lines (row ++ '\n' :: rest) = chomp row :: lines rest := by
  induction row with
  | nil => rfl
  | cons c row ih =>
    have hc : c ≠ '\n' := fun heq => h (heq ▸ List.mem_cons_self)
    have hrow : '\n' ∉ row := fun hmem => h (List.mem_cons_of_mem _ hmem)
    by_cases hlast : c = '\r' ∧ row = []
    · rw [hlast.1, hlast.2]
      rfl
    · rw [not_and_or] at hlast
      rw [chomp_cons hlast]
      apply lines_cons hc _ (ih hrow)
      apply hlast.imp_right
      intro hnil hhead
      rw [List.head?_append_of_ne_nil _ hnil] at hhead
      exact hrow (List.mem_of_mem_head? hhead)

theorem getElem?_lines {whole : List Char} (h : WholeRows whole) (rest : List Char) :
    (lines (whole ++ rest))[whole.count '\n']? = (lines rest).head? := by
  induction h with
  | nil => exact List.head?_eq_getElem?.symm
  | @cons row inner hrow _ ih =>
    rw [count_line_feed hrow, List.append_assoc, List.cons_append, lines_line_feed hrow,
      List.getElem?_cons_succ, ih]

/-- A line is the row of its number, without one carriage return at the end if a line feed comes
next. A last row that is empty is no line. -/
theorem RowCut.line?_eq {text : String} {n : Nat} {whole row rest : List Char}
    (h : RowCut text.toList n whole row rest) :
    line? text n = if rest ≠ [] then some (chomp row) else if row ≠ [] then some row else none := by
  rw [← h.number, line?, h.split, List.append_assoc, getElem?_lines h.above]
  rcases h.below with hnil | ⟨more, hmore⟩
  · rw [hnil, List.append_nil, if_neg (by simp)]
    by_cases hrow : row = []
    · rw [hrow]
      rfl
    · rw [if_pos hrow, lines_row h.inside hrow, List.head?_cons]
  · rw [hmore, if_pos (by simp), lines_line_feed h.inside, List.head?_cons]

theorem exists_rowCut {cs line : List Char} {i : Nat} (h : (lines cs)[i]? = some line) :
    ∃ whole row rest, RowCut cs (i + 1) whole row rest := by
  induction i generalizing cs with
  | zero =>
    by_cases hfeed : '\n' ∈ cs
    · obtain ⟨row, more, rfl, hrow⟩ := List.eq_append_cons_of_mem hfeed
      exact ⟨[], row, '\n' :: more, rfl, .nil, hrow, Or.inr ⟨more, rfl⟩, rfl⟩
    · exact ⟨[], cs, [], by simp, .nil, hfeed, Or.inl rfl, rfl⟩
  | succ i ih =>
    by_cases hfeed : '\n' ∈ cs
    · obtain ⟨first, more, rfl, hfirst⟩ := List.eq_append_cons_of_mem hfeed
      rw [lines_line_feed hfirst, List.getElem?_cons_succ] at h
      obtain ⟨whole, row, rest, hcut⟩ := ih h
      refine ⟨first ++ '\n' :: whole, row, rest, ?_, .cons hfirst hcut.above, hcut.inside,
        hcut.below, ?_⟩
      · rw [hcut.split]
        simp
      · rw [count_line_feed hfirst, hcut.number]
    · -- A single row has no second line.
      by_cases hnil : cs = []
      · rw [hnil] at h
        cases h
      · rw [lines_row hfeed hnil] at h
        cases h

/-- Every line is a row. -/
theorem exists_isRow {text : String} {n : Nat} {line : List Char} (h : line? text n = some line) :
    ∃ row, IsRow text n row := by
  cases n with
  | zero => cases h
  | succ i =>
    obtain ⟨whole, row, rest, hcut⟩ := exists_rowCut h
    exact ⟨row, whole, rest, hcut⟩

end ObserverLint.Text
