import Mathlib.Data.List.Infix
import Mathlib.Data.List.TakeWhile
import ObserverLint.Json.Parser

namespace ObserverLint.Json

theorem hexValue?_hexDigit : ∀ n < 16, hexValue? (hexDigit n) = some n := by decide

/-- The code unit that two digits for a small number stand for. -/
theorem codeUnit?_small {n : Nat} (h : n < 256) (cs : List Char) :
    codeUnit? ('0' :: '0' :: hexDigit (n / 16) :: hexDigit (n % 16) :: cs) = some (n, cs) := by
  have hzero : hexValue? '0' = some 0 := by decide
  have hhigh : hexValue? (hexDigit (n / 16)) = some (n / 16) := hexValue?_hexDigit _ (by omega)
  have hlow : hexValue? (hexDigit (n % 16)) = some (n % 16) := hexValue?_hexDigit _ (by omega)
  have hunit : (0 * 16 + 0) * 256 + (n / 16 * 16 + n % 16) = n := by omega
  simp only [codeUnit?, hzero, hhigh, hlow, Option.bind_eq_bind, Option.bind_some, hunit]

theorem unicodeEscape?_small {c : Char} (h : c.toNat < 0x20) (cs : List Char) :
    unicodeEscape? ('0' :: '0' :: hexDigit (c.toNat / 16) :: hexDigit (c.toNat % 16) :: cs) =
      some (.char c, cs) := by
  have hhigh : ¬ (0xD800 ≤ c.toNat ∧ c.toNat ≤ 0xDBFF) := by omega
  have hlow : ¬ (0xDC00 ≤ c.toNat ∧ c.toNat ≤ 0xDFFF) := by omega
  rw [unicodeEscape?, codeUnit?_small (by omega)]
  simp only [Option.bind_eq_bind, Option.bind_some, if_neg hhigh, if_neg hlow, Char.ofNat_toNat]

def followed (c : Char) (found : Option (List Char) × Rest) : Option (List Char) × Rest :=
  (attach (.char c) found.1, found.2)

theorem stringBody?_escaped {c : Char} {code cs : List Char} (n : Nat)
    (h : escape? (code ++ cs) = some (.char c, cs)) :
    stringBody? (n + 1) ('\\' :: code ++ cs) = (stringBody? n cs).map (followed c) := by
  rw [List.cons_append, stringBody?, h]
  simp only [Option.bind_eq_bind, Option.bind_some]
  cases stringBody? n cs <;> rfl

theorem stringBody?_plain {c : Char} (n : Nat) (cs : List Char) (hquote : c ≠ '"')
    (hslash : c ≠ '\\') (hcontrol : ¬ c.toNat < 0x20) :
    stringBody? (n + 1) (c :: cs) = (stringBody? n cs).map (followed c) := by
  rw [stringBody?, if_neg hcontrol]
  · rfl
  · exact hquote
  · exact hslash

/-- One step of reading a string undoes one step of writing it. -/
theorem stringBody?_escape (n : Nat) (c : Char) (cs : List Char) :
    stringBody? (n + 1) (escape c ++ cs) = (stringBody? n cs).map (followed c) := by
  unfold escape
  split_ifs with hquote hslash hback hfeed hline hreturn htab hcontrol
  · exact @stringBody?_escaped _ ['"'] _ n (by rw [hquote]; rfl)
  · exact @stringBody?_escaped _ ['\\'] _ n (by rw [hslash]; rfl)
  · exact @stringBody?_escaped _ ['b'] _ n (by rw [hback]; rfl)
  · exact @stringBody?_escaped _ ['f'] _ n (by rw [hfeed]; rfl)
  · exact @stringBody?_escaped _ ['n'] _ n (by rw [hline]; rfl)
  · exact @stringBody?_escaped _ ['r'] _ n (by rw [hreturn]; rfl)
  · exact @stringBody?_escaped _ ['t'] _ n (by rw [htab]; rfl)
  · exact @stringBody?_escaped _ ['u', '0', '0', _, _] _ n (unicodeEscape?_small hcontrol cs)
  · exact stringBody?_plain n cs hquote hslash hcontrol

theorem stringBody?_flatMap_escape (text rest : List Char) {n : Nat} (h : text.length < n) :
    stringBody? n (text.flatMap escape ++ '"' :: rest) = some (some text, rest) := by
  induction text generalizing n with
  | nil =>
    obtain ⟨n, rfl⟩ : ∃ m, n = m + 1 := ⟨n - 1, by omega⟩
    rfl
  | cons c text ih =>
    obtain ⟨n, rfl⟩ : ∃ m, n = m + 1 := ⟨n - 1, by omega⟩
    have htail : text.length < n := by
      rw [List.length_cons] at h
      omega
    rw [List.flatMap_cons, List.append_assoc, stringBody?_escape, ih htail]
    rfl

theorem length_le_flatMap_escape (text : List Char) :
    text.length ≤ (text.flatMap escape).length := by
  induction text with
  | nil => simp
  | cons c text ih =>
    have hpos : 0 < (escape c).length := by
      unfold escape
      split_ifs <;> simp
    rw [List.flatMap_cons, List.length_append, List.length_cons]
    omega

theorem string?_quote (text : String) (rest : List Char) :
    string? (quote text ++ rest) = some (some text, rest) := by
  have hlength := length_le_flatMap_escape text.toList
  have hbody : stringBody? ((text.toList.flatMap escape ++ '"' :: rest).length + 1)
      (text.toList.flatMap escape ++ '"' :: rest) = some (some text.toList, rest) := by
    apply stringBody?_flatMap_escape
    rw [List.length_append]
    omega
  have hquote : quote text ++ rest = '"' :: (text.toList.flatMap escape ++ '"' :: rest) := by
    simp [quote]
  rw [hquote, string?, hbody]
  simp

/-- The text does not go on with a number that came before it. -/
def Ends (cs : List Char) : Prop :=
  ∀ c, cs.head? = some c → c.isDigit = false ∧ c ≠ '.' ∧ c ≠ 'e' ∧ c ≠ 'E'

theorem digitsValue_toDigits (n : Nat) : digitsValue (Nat.toDigits 10 n) = n := by
  have hfold := @Nat.ofDigitChars_ten_toDigits n
  rw [Nat.ofDigitChars_eq_foldl] at hfold
  rw [digitsValue]
  simpa only [Nat.mul_comm] using hfold

theorem isDigit_of_mem_toDigits {n : Nat} {c : Char} (h : c ∈ Nat.toDigits 10 n) :
    c.isDigit = true :=
  Nat.isDigit_of_mem_toDigits (by decide) (by decide) h

theorem takeWhile_digits {digits rest : List Char} (h : ∀ c ∈ digits, c.isDigit = true)
    (hrest : Ends rest) : (digits ++ rest).takeWhile Char.isDigit = digits := by
  rw [List.takeWhile_append_of_pos h]
  cases rest with
  | nil => simp
  | cons c rest => simp [(hrest c rfl).1]

theorem dropWhile_digits {digits rest : List Char} (h : ∀ c ∈ digits, c.isDigit = true)
    (hrest : Ends rest) : (digits ++ rest).dropWhile Char.isDigit = rest := by
  rw [List.dropWhile_append_of_pos h]
  cases rest with
  | nil => rfl
  | cons c rest => simp [(hrest c rfl).1]

/-- A number does not begin with a zero, unless it is zero. -/
theorem head?_toDigits_ne_zero {n : Nat} (h : n ≠ 0) : (Nat.toDigits 10 n).head? ≠ some '0' := by
  induction n using Nat.strong_induction_on with
  | _ n ih =>
    rw [Nat.toDigits_eq_if (by decide)]
    split
    · simpa [Nat.digitChar_eq_zero] using h
    · rw [List.head?_append_of_ne_nil _ Nat.toDigits_ne_nil]
      exact ih (n / 10) (by omega) (by omega)

theorem whole?_toDigits (n : Nat) {rest : List Char} (h : Ends rest) :
    whole? (Nat.toDigits 10 n ++ rest) = some (Nat.toDigits 10 n, rest) := by
  have hdigits : ∀ c ∈ Nat.toDigits 10 n, c.isDigit = true := fun c => isDigit_of_mem_toDigits
  have htake := takeWhile_digits hdigits h
  have hdrop := dropWhile_digits hdigits h
  unfold whole?
  split
  · -- Only a lone zero begins with a zero.
    rename_i c cs hcs
    have hzero : n = 0 := by
      by_contra hne
      apply head?_toDigits_ne_zero hne
      rw [← List.head?_append_of_ne_nil _ Nat.toDigits_ne_nil, hcs, List.head?_cons]
    rw [hzero, Nat.toDigits_zero] at hcs ⊢
    obtain rfl : rest = c :: cs := (List.cons.inj hcs).2
    rw [(h c rfl).1]
    rfl
  · rw [htake, hdrop]
    split
    · rename_i hnil
      exact absurd hnil Nat.toDigits_ne_nil
    · rfl

theorem fraction?_of_ends {rest : List Char} (h : Ends rest) :
    fraction? rest = some ([], rest) := by
  unfold fraction?
  split
  · exact absurd rfl (h '.' rfl).2.1
  · rfl

theorem exponent?_of_ends {rest : List Char} (h : Ends rest) :
    exponent? rest = some ([], rest) := by
  cases rest with
  | nil => rfl
  | cons c rest =>
    have hmark : ¬ (c = 'e' ∨ c = 'E') := not_or.mpr (h c rfl).2.2
    unfold exponent?
    exact if_neg hmark

theorem number?_toDigits (n : Nat) {rest : List Char} (h : Ends rest) :
    number? (Nat.toDigits 10 n ++ rest) = some (.nat n, rest) := by
  unfold number?
  split
  rename_i mark cs hmark
  split at hmark
  · rename_i after hafter
    have hminus : (Nat.toDigits 10 n).head? = some '-' := by
      rw [← List.head?_append_of_ne_nil _ Nat.toDigits_ne_nil, hafter, List.head?_cons]
    have hdigit := isDigit_of_mem_toDigits (List.mem_of_mem_head? hminus)
    exact absurd hdigit (by decide)
  · cases hmark
    simp [whole?_toDigits n h, fraction?_of_ends h, exponent?_of_ends h, digitsValue_toDigits]

theorem skipBlanks_cons {c : Char} (h : isJsonBlank c = false) (cs : List Char) :
    skipBlanks (c :: cs) = c :: cs := by
  rw [skipBlanks, List.dropWhile_cons_of_neg]
  simpa [isJsonBlank] using h

theorem skipBlanks_quote (text : String) (rest : List Char) :
    skipBlanks (quote text ++ rest) = quote text ++ rest :=
  skipBlanks_cons (by decide) _

def Begins (text : List Char) : Prop :=
  ∃ c cs, text = c :: cs ∧ isJsonBlank c = false ∧ c ≠ ']' ∧ c ≠ '}'

theorem Begins.append {text : List Char} (h : Begins text) (rest : List Char) :
    Begins (text ++ rest) := by
  obtain ⟨c, cs, rfl, hc⟩ := h
  exact ⟨c, cs ++ rest, rfl, hc⟩

/-- The text is read as the value, whatever it is followed by. -/
structure Reads (text : List Char) (v : Json) : Prop where
  begins : Begins text
  value : ∀ n rest, 2 * text.length ≤ n → Ends rest → value? n (text ++ rest) = some (v, rest)

structure ReadsItems (text : List Char) (vs : List Json) : Prop where
  begins : Begins text
  items : ∀ n rest, 2 * text.length < n → items? n (text ++ ']' :: rest) = some (vs, rest)

structure ReadsFields (text : List Char) (fs : List (String × Json)) : Prop where
  begins : Begins text
  fields : ∀ n rest, 2 * text.length < n →
    fields? n (text ++ '}' :: rest) = some (some fs, rest)

/-- There is something to read, so the bound is not used up before the first step. -/
theorem Reads.of_succ {text : List Char} {v : Json} (hbegins : Begins text)
    (h : ∀ n rest, 2 * text.length ≤ n + 1 → Ends rest →
      value? (n + 1) (text ++ rest) = some (v, rest)) : Reads text v where
  begins := hbegins
  value := by
    intro n rest hn hrest
    obtain ⟨c, cs, rfl, -⟩ := hbegins
    rw [List.length_cons] at hn
    obtain ⟨m, rfl⟩ : ∃ m, n = m + 1 := ⟨n - 1, by omega⟩
    exact h m rest hn hrest

theorem reads_null : Reads "null".toList .null :=
  .of_succ ⟨'n', _, rfl, by decide⟩ fun _ _ _ _ => rfl

theorem reads_true : Reads "true".toList (.bool true) :=
  .of_succ ⟨'t', _, rfl, by decide⟩ fun _ _ _ _ => rfl

theorem reads_false : Reads "false".toList (.bool false) :=
  .of_succ ⟨'f', _, rfl, by decide⟩ fun _ _ _ _ => rfl

theorem isJsonBlank_of_isDigit {c : Char} (h : c.isDigit = true) :
    isJsonBlank c = false ∧ c ≠ ']' ∧ c ≠ '}' := by
  refine ⟨?_, ?_, ?_⟩
  · by_contra hblank
    simp only [isJsonBlank, Bool.not_eq_false, Bool.or_eq_true, decide_eq_true_eq] at hblank
    rcases hblank with ((rfl | rfl) | rfl) | rfl <;> exact absurd h (by decide)
  · rintro rfl
    exact absurd h (by decide)
  · rintro rfl
    exact absurd h (by decide)

theorem value?_of_isDigit {c : Char} (h : c.isDigit = true) (n : Nat) (cs : List Char) :
    value? (n + 1) (c :: cs) = number? (c :: cs) := by
  rw [value?, skipBlanks_cons (isJsonBlank_of_isDigit h).1]
  split
  -- Only the last alternative does not name its first character.
  all_goals first
    | rfl
    | rename_i heq
      rw [(List.cons.inj heq).1] at h
      exact absurd h (by decide)

theorem reads_nat (k : Nat) : Reads (Nat.toDigits 10 k) (.nat k) := by
  obtain ⟨c, cs, hcs⟩ := List.exists_cons_of_ne_nil (@Nat.toDigits_ne_nil k 10)
  have hdigit : c.isDigit = true := isDigit_of_mem_toDigits (by rw [hcs]; exact List.mem_cons_self)
  refine .of_succ ⟨c, cs, hcs, isJsonBlank_of_isDigit hdigit⟩ ?_
  intro n rest _ hrest
  have hnumber := number?_toDigits k hrest
  rw [hcs, List.cons_append] at hnumber ⊢
  rw [value?_of_isDigit hdigit, hnumber]

theorem reads_string (text : String) : Reads (quote text) (.string text) := by
  refine .of_succ ⟨'"', _, rfl, by decide⟩ ?_
  intro n rest _ _
  have hstring := string?_quote text rest
  rw [quote, List.cons_append, List.cons_append] at hstring ⊢
  rw [value?, skipBlanks_cons (by decide)]
  simp only [hstring]
  rfl

theorem ends_cons {c : Char} (h : c.isDigit = false ∧ c ≠ '.' ∧ c ≠ 'e' ∧ c ≠ 'E')
    (rest : List Char) : Ends (c :: rest) := by
  rintro _ ⟨⟩
  exact h

theorem Reads.lastItem {text : List Char} {v : Json} (h : Reads text v) : ReadsItems text [v] where
  begins := h.begins
  items := by
    intro n rest hn
    obtain ⟨m, rfl⟩ : ∃ m, n = m + 1 := ⟨n - 1, by omega⟩
    have hvalue := h.value m _ (by omega) (ends_cons (c := ']') (by decide) rest)
    rw [items?, hvalue]
    rfl

theorem Reads.nextItem {text more : List Char} {v : Json} {vs : List Json} (h : Reads text v)
    (hmore : ReadsItems more vs) : ReadsItems (text ++ ',' :: more) (v :: vs) where
  begins := h.begins.append _
  items := by
    intro n rest hn
    rw [List.length_append, List.length_cons] at hn
    obtain ⟨m, rfl⟩ : ∃ m, n = m + 1 := ⟨n - 1, by omega⟩
    have hvalue := h.value m _ (by omega) (ends_cons (c := ',') (by decide) (more ++ ']' :: rest))
    have hitems := hmore.items m rest (by omega)
    rw [List.append_assoc, List.cons_append, items?, hvalue]
    simp only [Option.bind_eq_bind, Option.bind_some]
    rw [skipBlanks_cons (by decide)]
    simp only [hitems, Option.bind_some]

theorem begins_quote (text : String) : Begins (quote text) := ⟨'"', _, rfl, by decide⟩

/-- The value of a field is read once its key and the colon are. -/
theorem Reads.lastField {text : List Char} {v : Json} (h : Reads text v) (key : String) :
    ReadsFields (quote key ++ ':' :: text) [(key, v)] where
  begins := (begins_quote key).append _
  fields := by
    intro n rest hn
    rw [List.length_append, List.length_cons] at hn
    obtain ⟨m, rfl⟩ : ∃ m, n = m + 1 := ⟨n - 1, by omega⟩
    have hkey := string?_quote key (':' :: (text ++ '}' :: rest))
    have hvalue := h.value m _ (by omega) (ends_cons (c := '}') (by decide) rest)
    rw [List.append_assoc, List.cons_append, fields?, skipBlanks_quote, hkey]
    simp only [Option.bind_eq_bind, Option.bind_some]
    rw [skipBlanks_cons (by decide)]
    simp only [hvalue, Option.bind_some]
    rw [skipBlanks_cons (by decide)]
    rfl

theorem Reads.nextField {text more : List Char} {v : Json} {fs : List (String × Json)}
    (h : Reads text v) (key : String) (hmore : ReadsFields more fs) :
    ReadsFields (quote key ++ ':' :: text ++ ',' :: more) ((key, v) :: fs) where
  begins := ((begins_quote key).append _).append _
  fields := by
    intro n rest hn
    simp only [List.length_append, List.length_cons] at hn
    obtain ⟨m, rfl⟩ : ∃ m, n = m + 1 := ⟨n - 1, by omega⟩
    have hkey := string?_quote key (':' :: (text ++ ',' :: (more ++ '}' :: rest)))
    have hvalue := h.value m _ (by omega) (ends_cons (c := ',') (by decide) (more ++ '}' :: rest))
    have hfields := hmore.fields m rest (by omega)
    simp only [List.append_assoc, List.cons_append]
    rw [fields?, skipBlanks_quote, hkey]
    simp only [Option.bind_eq_bind, Option.bind_some]
    rw [skipBlanks_cons (by decide)]
    simp only [hvalue, Option.bind_some]
    rw [skipBlanks_cons (by decide)]
    simp only [hfields, Option.bind_some]
    rfl

theorem reads_emptyArray : Reads ['[', ']'] (.array []) :=
  .of_succ ⟨'[', _, rfl, by decide⟩ fun _ _ _ _ => rfl

theorem reads_emptyObject : Reads ['{', '}'] (.object []) :=
  .of_succ ⟨'{', _, rfl, by decide⟩ fun _ _ _ _ => rfl

theorem ReadsItems.array {text : List Char} {vs : List Json} (h : ReadsItems text vs) :
    Reads ('[' :: text ++ [']']) (.array vs) := by
  refine .of_succ ⟨'[', _, rfl, by decide⟩ ?_
  intro n rest hn _
  rw [List.length_append, List.length_cons, List.length_singleton] at hn
  have hitems := h.items n rest (by omega)
  obtain ⟨c, cs, rfl, hblank, hclose, -⟩ := h.begins
  have hshape : '[' :: c :: cs ++ [']'] ++ rest = '[' :: c :: (cs ++ ']' :: rest) := by simp
  rw [List.cons_append] at hitems
  rw [hshape, value?, skipBlanks_cons (by decide)]
  simp only [skipBlanks_cons hblank]
  split
  · rename_i heq
    exact absurd (List.cons.inj heq).1 hclose
  · rw [hitems]
    rfl

theorem ReadsFields.object {text : List Char} {fs : List (String × Json)}
    (h : ReadsFields text fs) : Reads ('{' :: text ++ ['}']) (.object fs) := by
  refine .of_succ ⟨'{', _, rfl, by decide⟩ ?_
  intro n rest hn _
  rw [List.length_append, List.length_cons, List.length_singleton] at hn
  have hfields := h.fields n rest (by omega)
  obtain ⟨c, cs, rfl, hblank, -, hclose⟩ := h.begins
  have hshape : '{' :: c :: cs ++ ['}'] ++ rest = '{' :: c :: (cs ++ '}' :: rest) := by simp
  rw [List.cons_append] at hfields
  rw [hshape, value?, skipBlanks_cons (by decide)]
  simp only [skipBlanks_cons hblank]
  split
  · rename_i heq
    exact absurd (List.cons.inj heq).1 hclose
  · rw [hfields]
    rfl

mutual

/-- The value is told by its text: it has no number that is kept as written, and all its strings
stand for texts. -/
def isPlain : Json → Bool
  | null | bool _ | nat _ | string _ => true
  | number _ | unreadable => false
  | array items => arePlain items
  | object fields => havePlain fields

def arePlain : List Json → Bool
  | [] => true
  | v :: vs => v.isPlain && arePlain vs

def havePlain : List (String × Json) → Bool
  | [] => true
  | (_, v) :: fs => v.isPlain && havePlain fs

end

mutual

theorem reads_compactChars : ∀ v : Json, v.isPlain = true → Reads v.compactChars v
  | .null, _ => reads_null
  | .bool true, _ => reads_true
  | .bool false, _ => reads_false
  | .nat k, _ => reads_nat k
  | .string text, _ => reads_string text
  | .array [], _ => reads_emptyArray
  | .array (v :: vs), h => (readsItems_compactItems (v :: vs) (List.cons_ne_nil v vs) h).array
  | .object [], _ => reads_emptyObject
  | .object (f :: fs), h => (readsFields_compactFields (f :: fs) (List.cons_ne_nil f fs) h).object

theorem readsItems_compactItems : ∀ vs : List Json, vs ≠ [] → arePlain vs = true →
    ReadsItems (compactItems vs) vs
  | [], hne, _ => absurd rfl hne
  | [v], _, h => by
    obtain ⟨hv, -⟩ := Bool.and_eq_true_iff.mp h
    exact (reads_compactChars v hv).lastItem
  | v :: w :: vs, _, h => by
    obtain ⟨hv, hvs⟩ := Bool.and_eq_true_iff.mp h
    have hrest := readsItems_compactItems (w :: vs) (List.cons_ne_nil w vs) hvs
    exact (reads_compactChars v hv).nextItem hrest

theorem readsFields_compactFields : ∀ fs : List (String × Json), fs ≠ [] → havePlain fs = true →
    ReadsFields (compactFields fs) fs
  | [], hne, _ => absurd rfl hne
  | [(key, v)], _, h => by
    obtain ⟨hv, -⟩ := Bool.and_eq_true_iff.mp h
    exact (reads_compactChars v hv).lastField key
  | (key, v) :: f :: fs, _, h => by
    obtain ⟨hv, hfs⟩ := Bool.and_eq_true_iff.mp h
    have hrest := readsFields_compactFields (f :: fs) (List.cons_ne_nil f fs) hfs
    exact (reads_compactChars v hv).nextField key hrest

end

/-- A value that is told by its text reads back from it. -/
theorem parse?_compact {v : Json} (h : v.isPlain = true) : parse? v.compact = some v := by
  have hends : Ends [] := by
    intro c hc
    cases hc
  have hvalue := (reads_compactChars v h).value (2 * v.compactChars.length + 2) [] (by omega) hends
  rw [List.append_nil] at hvalue
  rw [parse?, compact, String.length_ofList, String.toList_ofList, hvalue]
  rfl

end ObserverLint.Json
