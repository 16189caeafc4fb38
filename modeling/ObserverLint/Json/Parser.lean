import ObserverLint.Json.Basic

namespace ObserverLint.Json

abbrev Rest := List Char

def isJsonBlank (c : Char) : Bool := c = ' ' || c = '\n' || c = '\t' || c = '\r'

def skipBlanks (cs : Rest) : Rest := cs.dropWhile isJsonBlank

def hexValue? (c : Char) : Option Nat :=
  if '0' ≤ c ∧ c ≤ '9' then some (c.toNat - '0'.toNat)
  else if 'a' ≤ c ∧ c ≤ 'f' then some (c.toNat - 'a'.toNat + 10)
  else if 'A' ≤ c ∧ c ≤ 'F' then some (c.toNat - 'A'.toNat + 10)
  else none

def codeUnit? : Rest → Option (Nat × Rest)
  | a :: b :: c :: d :: cs => do
    let unit := ((← hexValue? a) * 16 + (← hexValue? b)) * 256 +
      ((← hexValue? c) * 16 + (← hexValue? d))
    some (unit, cs)
  | _ => none

/-- A piece of a string: a character, or half of a surrogate pair. -/
inductive Piece where
  | char (c : Char)
  | half

/-- The character written as an escaped code unit, or two of them for a pair. -/
def unicodeEscape? (cs : Rest) : Option (Piece × Rest) := do
  let (high, rest) ← codeUnit? cs
  if 0xD800 ≤ high ∧ high ≤ 0xDBFF then
    match rest with
    | '\\' :: 'u' :: after =>
      let (low, rest) ← codeUnit? after
      if 0xDC00 ≤ low ∧ low ≤ 0xDFFF then
        some (.char (Char.ofNat (0x10000 + (high - 0xD800) * 0x400 + (low - 0xDC00))), rest)
      else some (.half, '\\' :: 'u' :: after)
    | _ => some (.half, rest)
  else if 0xDC00 ≤ high ∧ high ≤ 0xDFFF then some (.half, rest)
  else some (.char (Char.ofNat high), rest)

def escape? : Rest → Option (Piece × Rest)
  | '"' :: cs => some (.char '"', cs)
  | '\\' :: cs => some (.char '\\', cs)
  | '/' :: cs => some (.char '/', cs)
  | 'b' :: cs => some (.char '\x08', cs)
  | 'f' :: cs => some (.char '\x0c', cs)
  | 'n' :: cs => some (.char '\n', cs)
  | 'r' :: cs => some (.char '\r', cs)
  | 't' :: cs => some (.char '\t', cs)
  | 'u' :: cs => unicodeEscape? cs
  | _ => none

/-- Puts a piece before the rest of a string, which is no text if it has half of a pair. -/
def attach : Piece → Option (List Char) → Option (List Char)
  | .char c, text => text.map (c :: ·)
  | .half, _ => none

/-- A string up to its closing quote; `n` bounds its length. -/
def stringBody? : Nat → Rest → Option (Option (List Char) × Rest)
  | 0, _ => none
  | _ + 1, [] => none
  | _ + 1, '"' :: cs => some (some [], cs)
  | n + 1, '\\' :: cs => do
    let (piece, cs) ← escape? cs
    let (text, cs) ← stringBody? n cs
    some (attach piece text, cs)
  | n + 1, c :: cs =>
    if c.toNat < 0x20 then none
    else (stringBody? n cs).map fun (text, cs) => (attach (.char c) text, cs)

/-- A string, and whether it stands for a text. -/
def string? : Rest → Option (Option String × Rest)
  | '"' :: cs =>
    (stringBody? (cs.length + 1) cs).map fun (text, cs) => (text.map String.ofList, cs)
  | _ => none

def digitsValue (digits : List Char) : Nat :=
  digits.foldl (fun n c => n * 10 + (c.toNat - '0'.toNat)) 0

/-- The whole part of a number, which begins with a zero only if that is all of it. -/
def whole? : Rest → Option (List Char × Rest)
  | '0' :: c :: cs => if c.isDigit then none else some (['0'], c :: cs)
  | cs =>
    match cs.takeWhile Char.isDigit with
    | [] => none
    | digits => some (digits, cs.dropWhile Char.isDigit)

def fraction? : Rest → Option (List Char × Rest)
  | '.' :: cs =>
    match cs.takeWhile Char.isDigit with
    | [] => none
    | digits => some ('.' :: digits, cs.dropWhile Char.isDigit)
  | cs => some ([], cs)

def exponentDigits? (mark : List Char) (cs : Rest) : Option (List Char × Rest) :=
  match cs.takeWhile Char.isDigit with
  | [] => none
  | digits => some (mark ++ digits, cs.dropWhile Char.isDigit)

def exponent? : Rest → Option (List Char × Rest)
  | [] => some ([], [])
  | c :: cs =>
    if c = 'e' ∨ c = 'E' then
      match cs with
      | '+' :: cs => exponentDigits? ['e', '+'] cs
      | '-' :: cs => exponentDigits? ['e', '-'] cs
      | cs => exponentDigits? ['e'] cs
    else some ([], c :: cs)

def number? (cs : Rest) : Option (Json × Rest) := do
  let (mark, cs) := match cs with
    | '-' :: cs => (['-'], cs)
    | cs => ([], cs)
  let (digits, cs) ← whole? cs
  let (fraction, cs) ← fraction? cs
  let (exponent, cs) ← exponent? cs
  if mark = [] ∧ fraction = [] ∧ exponent = [] then some (.nat (digitsValue digits), cs)
  else some (.number (String.ofList (mark ++ digits ++ fraction ++ exponent)), cs)

def withField (key : Option String) (v : Json) (fields : Option (List (String × Json))) :
    Option (List (String × Json)) := do
  some ((← key, v) :: (← fields))

/-- The object with these fields, if all its keys are texts. -/
def ofFields (fields : Option (List (String × Json))) : Json :=
  match fields with
  | some fields => .object fields
  | none => .unreadable

mutual

/-- A value; `n` bounds how much there is to read. -/
def value? : Nat → Rest → Option (Json × Rest)
  | 0, _ => none
  | n + 1, cs =>
    match skipBlanks cs with
    | 'n' :: 'u' :: 'l' :: 'l' :: cs => some (.null, cs)
    | 't' :: 'r' :: 'u' :: 'e' :: cs => some (.bool true, cs)
    | 'f' :: 'a' :: 'l' :: 's' :: 'e' :: cs => some (.bool false, cs)
    | '[' :: cs =>
      match skipBlanks cs with
      | ']' :: cs => some (.array [], cs)
      | cs => (items? n cs).map fun (items, cs) => (.array items, cs)
    | '{' :: cs =>
      match skipBlanks cs with
      | '}' :: cs => some (.object [], cs)
      | cs => (fields? n cs).map fun (fields, cs) => (ofFields fields, cs)
    | '"' :: cs =>
      (string? ('"' :: cs)).map fun (text, cs) =>
        match text with
        | some text => (.string text, cs)
        | none => (.unreadable, cs)
    | cs => number? cs

def items? : Nat → Rest → Option (List Json × Rest)
  | 0, _ => none
  | n + 1, cs => do
    let (v, cs) ← value? n cs
    match skipBlanks cs with
    | ',' :: cs =>
      let (vs, cs) ← items? n cs
      some (v :: vs, cs)
    | ']' :: cs => some ([v], cs)
    | _ => none

def fields? : Nat → Rest → Option (Option (List (String × Json)) × Rest)
  | 0, _ => none
  | n + 1, cs => do
    let (key, cs) ← string? (skipBlanks cs)
    match skipBlanks cs with
    | ':' :: cs =>
      let (v, cs) ← value? n cs
      match skipBlanks cs with
      | ',' :: cs =>
        let (fields, cs) ← fields? n cs
        some (withField key v fields, cs)
      | '}' :: cs => some (withField key v (some []), cs)
      | _ => none
    | _ => none

end

def parse? (text : String) : Option Json :=
  match value? (2 * text.length + 2) text.toList with
  | some (v, rest) => if skipBlanks rest = [] then some v else none
  | none => none

end ObserverLint.Json
