namespace ObserverLint.Text

def bytes (cs : List Char) : List UInt8 := cs.flatMap String.utf8EncodeChar

def continued? (b : UInt8) : Option Nat :=
  if 0x80 ≤ b ∧ b < 0xC0 then some (b.toNat - 0x80) else none

/-- The character with a code point, if the bytes it was read from are its shortest form. -/
def scalar? (least n : Nat) : Option Char :=
  if least ≤ n ∧ n.isValidChar then some (Char.ofNat n) else none

def decodeChar? : List UInt8 → Option (Char × List UInt8)
  | [] => none
  | a :: bs =>
    if a < 0x80 then some (Char.ofNat a.toNat, bs)
    else if a < 0xC0 then none
    else if a < 0xE0 then
      match bs with
      | b :: bs => do
        let c ← scalar? 0x80 ((a.toNat - 0xC0) * 64 + (← continued? b))
        some (c, bs)
      | _ => none
    else if a < 0xF0 then
      match bs with
      | b :: c :: bs => do
        let c ← scalar? 0x800 (((a.toNat - 0xE0) * 64 + (← continued? b)) * 64 + (← continued? c))
        some (c, bs)
      | _ => none
    else
      match bs with
      | b :: c :: d :: bs => do
        let c ← scalar? 0x10000 ((((a.toNat - 0xF0) * 64 + (← continued? b)) * 64 +
          (← continued? c)) * 64 + (← continued? d))
        some (c, bs)
      | _ => none

/-- The characters up to the first byte that belongs to none, and the bytes from there on; `n`
bounds the number of characters. -/
def decode : Nat → List UInt8 → List Char × List UInt8
  | 0, bs => ([], bs)
  | n + 1, bs =>
    match decodeChar? bs with
    | some (c, rest) =>
      let (cs, left) := decode n rest
      (c :: cs, left)
    | none => ([], bs)

end ObserverLint.Text
