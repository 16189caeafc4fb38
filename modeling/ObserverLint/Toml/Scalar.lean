import ObserverLint.Toml.Value

namespace ObserverLint.Toml

/-- The characters ahead. A reader returns what it read with those that follow, or nothing. -/
abbrev Rest := List Char

/-- Characters that may stand in comments and strings: all but controls, and the tab. -/
def isText (c : Char) : Bool := c = '\t' || (0x20 ≤ c.toNat && c.toNat ≠ 0x7f)

def skipBlanks (cs : Rest) : Rest := cs.dropWhile fun c => c = ' ' || c = '\t'

def newline? : Rest → Option Rest
  | '\n' :: cs => some cs
  | '\r' :: '\n' :: cs => some cs
  | _ => none

def skipBlankLines : Rest → Rest
  | ' ' :: cs => skipBlankLines cs
  | '\t' :: cs => skipBlankLines cs
  | '\n' :: cs => skipBlankLines cs
  | '\r' :: '\n' :: cs => skipBlankLines cs
  | cs => cs

def hexDigit? (c : Char) : Option Nat :=
  if '0' ≤ c ∧ c ≤ '9' then some (c.toNat - '0'.toNat)
  else if 'a' ≤ c ∧ c ≤ 'f' then some (c.toNat - 'a'.toNat + 10)
  else if 'A' ≤ c ∧ c ≤ 'F' then some (c.toNat - 'A'.toNat + 10)
  else none

def numeral (base : Nat) (digits : List Char) : Nat :=
  digits.foldl (fun n c => n * base + (hexDigit? c).getD 0) 0

/-- The character with a code of exactly `n` hexadecimal digits. -/
def codePoint? (n : Nat) (cs : Rest) : Option (Char × Rest) :=
  let digits := cs.take n
  let code := numeral 16 digits
  if digits.length = n ∧ digits.all (fun c => (hexDigit? c).isSome) ∧ code.isValidChar then
    some (Char.ofNat code, cs.drop n)
  else none

def escape? : Rest → Option (Char × Rest)
  | 'b' :: cs => some ('\x08', cs)
  | 't' :: cs => some ('\t', cs)
  | 'n' :: cs => some ('\n', cs)
  | 'f' :: cs => some ('\x0c', cs)
  | 'r' :: cs => some ('\r', cs)
  | '"' :: cs => some ('"', cs)
  | '\\' :: cs => some ('\\', cs)
  | 'u' :: cs => codePoint? 4 cs
  | 'U' :: cs => codePoint? 8 cs
  | _ => none

def basicBody? : Nat → Rest → Option (List Char × Rest)
  | 0, _ => none
  | _ + 1, [] => none
  | _ + 1, '"' :: cs => some ([], cs)
  | n + 1, '\\' :: cs => do
    let (c, cs) ← escape? cs
    let (body, cs) ← basicBody? n cs
    some (c :: body, cs)
  | n + 1, c :: cs =>
    if isText c then (basicBody? n cs).map fun (body, cs) => (c :: body, cs) else none

/-- What follows a backslash at the end of a line, which swallows all blanks after it. -/
def continuation? (cs : Rest) : Option Rest := (newline? (skipBlanks cs)).map skipBlankLines

/-- A string up to its three closing quotes. Up to two more quotes before them belong to it. -/
def multiBasicBody? : Nat → Rest → Option (List Char × Rest)
  | 0, _ => none
  | _ + 1, [] => none
  | _ + 1, '"' :: '"' :: '"' :: '"' :: '"' :: cs => some (['"', '"'], cs)
  | _ + 1, '"' :: '"' :: '"' :: '"' :: cs => some (['"'], cs)
  | _ + 1, '"' :: '"' :: '"' :: cs => some ([], cs)
  | n + 1, '\r' :: '\n' :: cs =>
    (multiBasicBody? n cs).map fun (body, cs) => ('\n' :: body, cs)
  | n + 1, '\\' :: cs =>
    match continuation? cs with
    | some cs => multiBasicBody? n cs
    | none => do
      let (c, cs) ← escape? cs
      let (body, cs) ← multiBasicBody? n cs
      some (c :: body, cs)
  | n + 1, c :: cs =>
    if isText c || c = '\n' then (multiBasicBody? n cs).map fun (body, cs) => (c :: body, cs)
    else none

def literalBody? : Rest → Option (List Char × Rest)
  | [] => none
  | '\'' :: cs => some ([], cs)
  | c :: cs => if isText c then (literalBody? cs).map fun (body, cs) => (c :: body, cs) else none

def multiLiteralBody? : Rest → Option (List Char × Rest)
  | [] => none
  | '\'' :: '\'' :: '\'' :: '\'' :: '\'' :: cs => some (['\'', '\''], cs)
  | '\'' :: '\'' :: '\'' :: '\'' :: cs => some (['\''], cs)
  | '\'' :: '\'' :: '\'' :: cs => some ([], cs)
  | '\r' :: '\n' :: cs => (multiLiteralBody? cs).map fun (body, cs) => ('\n' :: body, cs)
  | c :: cs =>
    if isText c || c = '\n' then (multiLiteralBody? cs).map fun (body, cs) => (c :: body, cs)
    else none

/-- A line end right after three opening quotes does not count. -/
def dropFirstNewline (cs : Rest) : Rest := (newline? cs).getD cs

def lineString? : Rest → Option (String × Rest)
  | '"' :: cs => (basicBody? (cs.length + 1) cs).map fun (body, cs) => (String.ofList body, cs)
  | '\'' :: cs => (literalBody? cs).map fun (body, cs) => (String.ofList body, cs)
  | _ => none

def string? : Rest → Option (String × Rest)
  | '"' :: '"' :: '"' :: cs =>
    let cs := dropFirstNewline cs
    (multiBasicBody? (cs.length + 1) cs).map fun (body, cs) => (String.ofList body, cs)
  | '\'' :: '\'' :: '\'' :: cs =>
    (multiLiteralBody? (dropFirstNewline cs)).map fun (body, cs) => (String.ofList body, cs)
  | cs => lineString? cs

def digitRun (isDigit : Char → Bool) : Rest → List Char × Rest
  | [] => ([], [])
  | '_' :: c :: cs =>
    if isDigit c then
      let (digits, rest) := digitRun isDigit cs
      (c :: digits, rest)
    else ([], '_' :: c :: cs)
  | c :: cs =>
    if isDigit c then
      let (digits, rest) := digitRun isDigit cs
      (c :: digits, rest)
    else ([], c :: cs)

/-- At least one digit, and more with single underscores between them. -/
def digits? (isDigit : Char → Bool) : Rest → Option (List Char × Rest)
  | [] => none
  | c :: cs => if isDigit c then some (digitRun isDigit (c :: cs)) else none

def sign : Rest → List Char × Bool × Rest
  | '+' :: cs => (['+'], false, cs)
  | '-' :: cs => (['-'], true, cs)
  | cs => ([], false, cs)

/-- The digits of a decimal number, which begins with a zero only if that is all of it. -/
def decimal? : Rest → Option (List Char × Rest)
  | '0' :: cs => some (['0'], cs)
  | cs => digits? Char.isDigit cs

def fraction? : Rest → Option (List Char × Rest)
  | '.' :: cs => digits? Char.isDigit cs
  | _ => none

def exponent? : Rest → Option (Bool × List Char × Rest)
  | [] => none
  | c :: cs =>
    if c = 'e' ∨ c = 'E' then
      let (_, negative, cs) := sign cs
      (digits? Char.isDigit cs).map fun (digits, cs) => (negative, digits, cs)
    else none

/-- Whether `m * 10 ^ e` rounds to infinity in double precision. -/
def overflows (m : Nat) (e : Int) : Bool :=
  let least := Nat.pow 2 1024 - Nat.pow 2 970
  if m = 0 then false
  else if 400 < (toString m).length + e then true
  else if (toString m).length + e < 300 then false
  else if 0 ≤ e then least ≤ m * Nat.pow 10 e.toNat
  else least * Nat.pow 10 (-e).toNat ≤ m

/-- A number with a fraction or an exponent. One that is too large is none, unless negative. -/
def float? (cs : Rest) : Option (Value × Rest) := do
  let (mark, negative, cs) := sign cs
  let (whole, cs) ← decimal? cs
  let (fraction, afterFraction) := (fraction? cs).getD ([], cs)
  let (expNegative, exponent, rest) := (exponent? afterFraction).getD (false, [], afterFraction)
  if fraction = [] ∧ exponent = [] then none
  else
    let scale : Int := if expNegative then -(numeral 10 exponent) else numeral 10 exponent
    if !negative && overflows (numeral 10 (whole ++ fraction)) (scale - fraction.length) then none
    else
      let point := if fraction = [] then [] else '.' :: fraction
      let power := if exponent = [] then [] else 'e' :: (if expNegative then '-' :: exponent else exponent)
      some (.float (String.ofList (mark ++ whole ++ point ++ power)), rest)

def specialFloat? (cs : Rest) : Option (Value × Rest) :=
  let (mark, _, cs) := sign cs
  match cs with
  | 'i' :: 'n' :: 'f' :: cs => some (.float (String.ofList (mark ++ "inf".toList)), cs)
  | 'n' :: 'a' :: 'n' :: cs => some (.float (String.ofList (mark ++ "nan".toList)), cs)
  | _ => none

def boundedInteger? (n : Int) : Option Value :=
  if -0x8000000000000000 ≤ n ∧ n < 0x8000000000000000 then some (.integer n) else none

def radixInteger? (base : Nat) (cs : Rest) : Option (Value × Rest) := do
  let (digits, cs) ← digits? (fun c => (hexDigit? c).any (· < base)) cs
  (boundedInteger? (numeral base digits)).map fun v => (v, cs)

def integer? : Rest → Option (Value × Rest)
  | '0' :: 'x' :: cs => radixInteger? 16 cs
  | '0' :: 'o' :: cs => radixInteger? 8 cs
  | '0' :: 'b' :: cs => radixInteger? 2 cs
  | cs => do
    let (_, negative, cs) := sign cs
    let (digits, cs) ← decimal? cs
    let n : Int := numeral 10 digits
    (boundedInteger? (if negative then -n else n)).map fun v => (v, cs)

def field? (n least most : Nat) (cs : Rest) : Option (Nat × Rest) :=
  let digits := cs.take n
  let value := numeral 10 digits
  if digits.length = n ∧ digits.all Char.isDigit ∧ least ≤ value ∧ value ≤ most then
    some (value, cs.drop n)
  else none

def symbol? (c : Char) : Rest → Option Rest
  | d :: cs => if c = d then some cs else none
  | [] => none

def daysIn (year month : Nat) : Nat :=
  if month = 2 then
    if year % 4 = 0 ∧ (year % 100 ≠ 0 ∨ year % 400 = 0) then 29 else 28
  else if month = 4 ∨ month = 6 ∨ month = 9 ∨ month = 11 then 30
  else 31

def date? (cs : Rest) : Option (Date × Rest) := do
  let (year, cs) ← field? 4 0 9999 cs
  let (month, cs) ← field? 2 1 12 (← symbol? '-' cs)
  let (day, cs) ← field? 2 1 (daysIn year month) (← symbol? '-' cs)
  some (⟨year, month, day⟩, cs)

/-- Billionths of a second from the digits after the point; further digits are cut off. -/
def nanoseconds (digits : List Char) : Nat :=
  numeral 10 (digits.take 9) * Nat.pow 10 (9 - (digits.take 9).length)

def timeWithin? (lastHour : Nat) (cs : Rest) : Option (Time × Rest) := do
  let (hour, cs) ← field? 2 0 lastHour cs
  let (minute, cs) ← field? 2 0 59 (← symbol? ':' cs)
  let (second, cs) ← field? 2 0 60 (← symbol? ':' cs)
  match cs with
  | '.' :: after =>
    match after.takeWhile Char.isDigit with
    -- A point without digits does not belong to the time.
    | [] => some (⟨hour, minute, second, 0⟩, cs)
    | digits => some (⟨hour, minute, second, nanoseconds digits⟩, after.dropWhile Char.isDigit)
  | _ => some (⟨hour, minute, second, 0⟩, cs)

def time? (cs : Rest) : Option (Time × Rest) := timeWithin? 23 cs

def offset? : Rest → Option (Offset × Rest)
  | [] => none
  | c :: cs =>
    if c = 'Z' ∨ c = 'z' then some (.zulu, cs)
    else if c = '+' ∨ c = '-' then do
      let (hour, cs) ← field? 2 0 23 cs
      let (minute, cs) ← field? 2 0 59 (← symbol? ':' cs)
      some (.custom (c = '+') hour minute, cs)
    else none

def timeAfterDate? : Rest → Option (Time × Rest)
  | [] => none
  | c :: cs => if c = 'T' ∨ c = 't' ∨ c = ' ' then time? cs else none

def moment? (cs : Rest) : Option (Moment × Rest) :=
  match date? cs with
  | some (date, cs) =>
    match timeAfterDate? cs with
    | some (time, cs) =>
      match offset? cs with
      | some (offset, cs) => some (⟨some date, some time, some offset⟩, cs)
      | none => some (⟨some date, some time, none⟩, cs)
    | none => some (⟨some date, none, none⟩, cs)
  | none => (time? cs).map fun (time, cs) => (⟨none, some time, none⟩, cs)

def scalar? (cs : Rest) : Option (Value × Rest) :=
  match cs with
  | '"' :: _ | '\'' :: _ => (string? cs).map fun (text, cs) => (.string text, cs)
  | 't' :: 'r' :: 'u' :: 'e' :: cs => some (.boolean true, cs)
  | 'f' :: 'a' :: 'l' :: 's' :: 'e' :: cs => some (.boolean false, cs)
  | _ =>
    match moment? cs with
    | some (m, cs) => some (.moment m, cs)
    | none => ((float? cs).orElse fun _ => specialFloat? cs).orElse fun _ => integer? cs

end ObserverLint.Toml
