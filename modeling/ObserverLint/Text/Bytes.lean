namespace ObserverLint.Text

def byteLength : List Char → Nat
  | [] => 0
  | c :: cs => c.utf8Size + byteLength cs

/-- What follows the first `n` bytes, if a character ends there. -/
def dropBytes? : Nat → List Char → Option (List Char)
  | 0, cs => some cs
  | _ + 1, [] => none
  | n + 1, c :: cs => if c.utf8Size ≤ n + 1 then dropBytes? (n + 1 - c.utf8Size) cs else none

def takeBytes? : Nat → List Char → Option (List Char)
  | 0, _ => some []
  | _ + 1, [] => none
  | n + 1, c :: cs =>
    if c.utf8Size ≤ n + 1 then (takeBytes? (n + 1 - c.utf8Size) cs).map (c :: ·) else none

/-- The text from byte `start` to byte `stop`, empty if either cuts a character or lies outside. -/
def slice (text : String) (start stop : Nat) : String :=
  match (dropBytes? start text.toList).bind (takeBytes? (stop - start)) with
  | some cs => String.ofList cs
  | none => ""

structure Position where
  line : Nat
  column : Nat
deriving DecidableEq, Repr

namespace Position

def start : Position := ⟨1, 1⟩

def advance (p : Position) (offset : Nat) : List Char → Position
  | [] => { p with column := p.column + offset }
  | c :: cs =>
    if offset < c.utf8Size then { p with column := p.column + offset }
    else if c = '\n' then advance ⟨p.line + 1, 1⟩ (offset - c.utf8Size) cs
    else advance { p with column := p.column + c.utf8Size } (offset - c.utf8Size) cs

end Position

/-- Line and column of a byte offset, both counted from one. Columns count bytes, and only a line
feed ends a line. -/
def positionAt (text : String) (offset : Nat) : Position :=
  Position.start.advance offset text.toList

end ObserverLint.Text
