import ObserverLint.Ignore.Match

namespace ObserverLint.Ignore

namespace Expression

/-- The characters that mean themselves only after a backslash. -/
def special : List Char := "\\.+*?()|[]\x7b\x7d^$#&-~".toList

def byteText (b : UInt8) : List Char :=
  let c := Char.ofNat b.toNat
  if b < 0x80 then if special.contains c then ['\\', c] else [c]
  else ['\\', 'x', Nat.digitChar (b.toNat / 16), Nat.digitChar (b.toNat % 16)]

def charText (c : Char) : List Char := (Text.bytes [c]).flatMap byteText

def rangeText (r : Char × Char) : List Char :=
  if r.1 = r.2 then charText r.1 else charText r.1 ++ '-' :: charText r.2

mutual

def tokenText : Token → List Char
  | .literal c => charText c
  | .anyByte => "[^/]".toList
  | .anyBytes => "[^/]*".toList
  | .leadingDirectories => "(?:/?|.*/)".toList
  | .innerDirectories => "(?:/|/.*/)".toList
  | .everythingBelow => "/.*".toList
  | .set negated ranges =>
    (if negated then ['[', '^'] else ['[']) ++ ranges.flatMap rangeText ++ [']']
  | .group [] => []
  | .group (branch :: branches) =>
    "(?:".toList ++ branchText branch ++ branchesText branches ++ [')']

def branchText : List Token → List Char
  | [] => []
  | t :: ts => tokenText t ++ branchText ts

def branchesText : List (List Token) → List Char
  | [] => []
  | branch :: branches => '|' :: branchText branch ++ branchesText branches

end

def text (tokens : List Token) : String :=
  String.ofList ("(?-u)^".toList ++ branchText tokens ++ ['$'])

def width : Token → Nat
  | .literal c => c.utf8Size
  | .everythingBelow => 2
  | .group [] => 0
  | _ => 1

def sequenceWidth : List Token → Nat
  | [] => 0
  | t :: ts => width t + sequenceWidth ts

def setWidth (ranges : List (Char × Char)) : Nat :=
  (ranges.flatMap fun r => byteSpans r.1 r.2).length

mutual

def depth : Token → Nat
  | .literal _ => 0
  | .anyByte => 1
  | .anyBytes => 2
  | .leadingDirectories => 4
  | .innerDirectories => 4
  | .everythingBelow => 1
  | .set _ ranges => if 1 < setWidth ranges then 2 else 1
  | .group [] => 0
  | .group [branch] => 1 + branchDepth branch
  | .group (branch :: branches) => 2 + max (branchDepth branch) (branchesDepth branches)

/-- How deep the parts of a sequence nest; it is a level of its own if there are several. -/
def branchDepth (ts : List Token) : Nat :=
  (if 1 < sequenceWidth ts then 1 else 0) + tokensDepth ts

def tokensDepth : List Token → Nat
  | [] => 0
  | t :: ts => max (depth t) (tokensDepth ts)

def branchesDepth : List (List Token) → Nat
  | [] => 0
  | branch :: branches => max (branchDepth branch) (branchesDepth branches)

end

/-- If a pattern of a file nests deeper, none of its patterns counts. -/
def maxDepth : Nat := 250

def isTooDeep (tokens : List Token) : Bool := maxDepth < 1 + tokensDepth tokens

end Expression

/-- The pattern that nests too deep, as its expression or as its number among those that are nothing
but expressions. -/
inductive DepthFault where
  | ofText (expression : String)
  | ofNumber (number : Nat)
deriving DecidableEq, Repr

namespace DepthFault

def message : DepthFault → String
  | ofText expression => s!"error parsing glob '{expression}': error parsing pattern 0"
  | ofNumber number => s!"error parsing pattern {number}"

/-- The fault in a list of patterns, if any. Those that are decided by their ending first are looked
at before the others. -/
def find? (patterns : List (List Token)) : Option DepthFault :=
  let kept (a : Approach) := patterns.filter fun p => Approach.ofTokens p == a
  match (kept .endingFirst).find? Expression.isTooDeep with
  | some p => some (ofText (Expression.text p))
  | none => ((kept .expression).findIdx? Expression.isTooDeep).map ofNumber

end DepthFault

end ObserverLint.Ignore
