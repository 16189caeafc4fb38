import ObserverLint.Proofs.Window

namespace ObserverLint

open Text

namespace Text

/-- `row` stands between the line feeds around the byte at `offset`, or the ends of the text. -/
structure RowAround (cs : List Char) (offset : Nat) (before row after : List Char) : Prop where
  split : cs = before ++ row ++ after
  opens : before = [] ∨ before.getLast? = some '\n'
  inside : '\n' ∉ row
  closes : after = [] ∨ after.head? = some '\n'
  from_le : byteLength before ≤ offset
  le_until : offset ≤ byteLength before + byteLength row

/-- A row as a line: without one carriage return at its end if a line feed comes next. -/
def asLine (row after : List Char) : List Char :=
  if after.head? = some '\n' ∧ row.getLast? = some '\r' then row.dropLast else row

theorem chomp_eq_ite (row : List Char) :
    chomp row = if row.getLast? = some '\r' then row.dropLast else row := by
  fun_induction chomp row with
  | case1 => rfl
  | case2 => rfl
  | case3 c cs hreturn ih =>
    by_cases hnil : cs = []
    · have hc : c ≠ '\r' := fun heq => hreturn heq hnil
      simp [hnil, chomp, hc]
    · obtain ⟨d, ds, rfl⟩ := List.exists_cons_of_ne_nil hnil
      rw [ih, List.getLast?_cons_cons, List.dropLast_cons_of_ne_nil hnil]
      exact apply_ite (c :: ·) _ _ _

theorem wholeRows_of_getLast? {cs : List Char} (h : cs = [] ∨ cs.getLast? = some '\n') :
    WholeRows cs := by
  obtain ⟨whole, row, rfl, hwhole, hrow⟩ := exists_wholeRows cs
  have hnil : row = [] := by
    by_contra hne
    rcases h with hempty | hlast
    · exact hne (List.append_eq_nil_iff.mp hempty).2
    · rw [List.getLast?_append_of_ne_nil _ hne] at hlast
      exact hrow (List.mem_of_getLast? hlast)
  rwa [hnil, List.append_nil]

theorem exists_rowAround {cs : List Char} {offset : Nat} (h : offset ≤ byteLength cs) :
    ∃ before row after, RowAround cs offset before row after := by
  -- One row is taken off the front at a time.
  induction hlength : cs.length using Nat.strong_induction_on generalizing cs offset with
  | _ n ih =>
    by_cases hfeed : '\n' ∈ cs
    · obtain ⟨first, more, rfl, hfirst⟩ := List.eq_append_cons_of_mem hfeed
      by_cases hinside : offset ≤ byteLength first
      · exact ⟨[], first, '\n' :: more, rfl, Or.inl rfl, hfirst, Or.inr rfl, Nat.zero_le _,
          by simpa [byteLength] using hinside⟩
      · have hsize : ('\n').utf8Size = 1 := rfl
        rw [byteLength_append, byteLength, hsize] at h
        have hshorter : more.length < n := by
          rw [List.length_append, List.length_cons] at hlength
          omega
        have hleft : offset - (byteLength first + 1) ≤ byteLength more := by omega
        obtain ⟨before, row, after, hrow⟩ := ih _ hshorter hleft rfl
        have hfrom := hrow.from_le
        have huntil := hrow.le_until
        have hbytes : byteLength (first ++ '\n' :: before) =
            byteLength first + (1 + byteLength before) := by
          rw [byteLength_append, byteLength, hsize]
        refine ⟨first ++ '\n' :: before, row, after, ?_, Or.inr ?_, hrow.inside, hrow.closes,
          by omega, by omega⟩
        · rw [hrow.split]
          simp
        · rw [List.getLast?_append_of_ne_nil _ (List.cons_ne_nil _ _)]
          rcases hrow.opens with rfl | hlast
          · rfl
          · rw [List.getLast?_cons, hlast]
            rfl
    · exact ⟨[], cs, [], by simp, Or.inl rfl, hfeed, Or.inl rfl, Nat.zero_le _,
        by simpa [byteLength] using h⟩

section RowAround

variable {text : String} {offset : Nat} {before row after : List Char}

theorem RowAround.rowCut (h : RowAround text.toList offset before row after) :
    RowCut text.toList (before.count '\n' + 1) before row after where
  split := h.split
  above := wholeRows_of_getLast? h.opens
  inside := h.inside
  below := h.closes.imp_right fun hhead => ⟨after.tail, (List.cons_head?_tail hhead).symm⟩
  number := rfl

theorem RowAround.positionAt_eq (h : RowAround text.toList offset before row after) :
    positionAt text offset = ⟨before.count '\n' + 1, offset - byteLength before + 1⟩ := by
  have hfrom := h.from_le
  have huntil := h.le_until
  have hoffset : offset = byteLength before + (offset - byteLength before) := by omega
  conv_lhs => rw [hoffset]
  exact positionAt_within_row h.split h.rowCut.above h.inside (by omega)

theorem RowAround.line?_eq (h : RowAround text.toList offset before row after)
    (hoffset : offset < byteLength text.toList) :
    line? text (before.count '\n' + 1) = some (asLine row after) := by
  rw [h.rowCut.line?_eq, asLine]
  rcases h.closes with hnil | hhead
  · -- The byte itself is in the row, so the last row is not empty.
    have hrow : row ≠ [] := by
      intro hempty
      have hfrom := h.from_le
      rw [h.split, hempty, hnil, List.append_nil, List.append_nil] at hoffset
      omega
    simp [hnil, hrow]
  · have hafter : after ≠ [] := by
      rintro rfl
      cases hhead
    rw [if_pos hafter, chomp_eq_ite]
    simp [hhead]

end RowAround

end Text

/-- The line number of a place leads to its row in the list of lines, in which its directive is
looked up, and the column leads from the start of that row back to the place. -/
theorem line_number_leads_to_row (path : Path) (text : String) (p : Place)
    (h : p.start < byteLength text.toList) :
    (∃ before row after, RowAround text.toList p.start before row after) ∧
      ∀ before row after, RowAround text.toList p.start before row after →
        1 ≤ (Location.ofPlace path text p).line ∧
        (Location.ofPlace path text p).line ≤ (lines text.toList).length ∧
        (lines text.toList)[(Location.ofPlace path text p).line - 1]? = some (asLine row after) ∧
        Directive.onLine? text (Location.ofPlace path text p).line =
          Directive.parse? (asLine row after) ∧
        1 ≤ (Location.ofPlace path text p).column ∧
        p.start = byteLength before + (Location.ofPlace path text p).column - 1 := by
  refine ⟨exists_rowAround (Nat.le_of_lt h), ?_⟩
  intro before row after hrow
  have hfrom := hrow.from_le
  have hline := hrow.line?_eq h
  obtain ⟨hfirst, hlast, hentry⟩ := line?_eq_some_iff.mp hline
  simp only [Location.ofPlace, hrow.positionAt_eq]
  refine ⟨hfirst, hlast, hentry, ?_, by omega, by omega⟩
  rw [Directive.onLine?, hline, Option.bind_some]

def mixedEnds : String := "é\r\n\n\rß// rxlint: allow(all)\r\r\nx"

/-- Of the three carriage returns of the third row, only the last is part of its end. -/
theorem mixedEnds_third_line :
    RowAround mixedEnds.toList 6 "é\r\n\n".toList "\rß// rxlint: allow(all)\r\r".toList
        "\nx".toList ∧
      (lines mixedEnds.toList)[3 - 1]? = some "\rß// rxlint: allow(all)\r".toList ∧
      Directive.onLine? mixedEnds 3 = some ⟨["all"], none⟩ := by
  have hrow : RowAround mixedEnds.toList 6 "é\r\n\n".toList
      "\rß// rxlint: allow(all)\r\r".toList "\nx".toList :=
    ⟨by decide, Or.inr (by decide), by decide, Or.inr (by decide), by decide, by decide⟩
  obtain ⟨-, hlines⟩ := line_number_leads_to_row ⟨"mixed.ts"⟩ mixedEnds
    (.root (.mk { kind := .identifier, start := 6, stop := 8 } [])) (by decide)
  obtain ⟨-, -, hline, hdirective, -⟩ := hlines _ _ _ hrow
  exact ⟨hrow, hline, hdirective.trans (by decide)⟩

end ObserverLint
