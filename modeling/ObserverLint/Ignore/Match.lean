import ObserverLint.Ignore.Pattern
import ObserverLint.Text.Marks
import ObserverLint.Text.Utf8

namespace ObserverLint.Ignore

def slash : UInt8 := 0x2F

def byteSpans (a b : Char) : List (UInt8 × UInt8) :=
  let single := fun x => (x, x)
  if a = b then (Text.bytes [a]).map single
  else
    let as := Text.bytes [a]
    let bs := Text.bytes [b]
    as.dropLast.map single ++ [(as.getLastD 0, bs.headD 0)] ++ bs.tail.map single

def setHolds (negated : Bool) (ranges : List (Char × Char)) (x : UInt8) : Bool :=
  let found := ranges.any fun r => (byteSpans r.1 r.2).any fun s => s.1 ≤ x && x ≤ s.2
  found != negated

open Text

def isSlash (x : UInt8) : Bool := x == slash

def bytesMarks (bytes xs : List UInt8) (later : List Bool) : List Bool :=
  bytes.foldr (fun b later => Marks.one (· == b) xs later) later

def directoriesMarks (xs : List UInt8) (later : List Bool) : List Bool :=
  Marks.either later (Marks.through isSlash xs later)

mutual

/-- Patterns match bytes, so a question mark matches only part of a character that has several. -/
def Token.marks : Token → List UInt8 → List Bool → List Bool
  | .literal c, xs, later => bytesMarks (Text.bytes [c]) xs later
  | .anyByte, xs, later => Marks.one (!isSlash ·) xs later
  | .anyBytes, xs, later => Marks.many (!isSlash ·) xs later
  | .leadingDirectories, xs, later => directoriesMarks xs later
  | .innerDirectories, xs, later => Marks.one isSlash xs (directoriesMarks xs later)
  | .everythingBelow, xs, later => Marks.one isSlash xs (Marks.many (fun _ => true) xs later)
  | .set negated ranges, xs, later => Marks.one (setHolds negated ranges) xs later
  | .group [], _, later => later
  | .group (branch :: branches), xs, later =>
    groupMarks branches xs later (sequenceMarks branch xs later)

/-- The marks for one of several alternatives, or what is already marked. -/
def groupMarks : List (List Token) → List UInt8 → List Bool → List Bool → List Bool
  | [], _, _, marked => marked
  | branch :: branches, xs, later, marked =>
    groupMarks branches xs later (Marks.either marked (sequenceMarks branch xs later))

def sequenceMarks : List Token → List UInt8 → List Bool → List Bool
  | [], _, later => later
  | t :: ts, xs, later => t.marks xs (sequenceMarks ts xs later)

end

/-- Some patterns are decided by the last name of a path, or by its ending. -/
inductive Approach where
  /-- The text of the path. -/
  | text
  /-- Its last name. -/
  | lastName
  /-- The last dot of its last name and what follows. -/
  | ending
  /-- Its ending first, and then an expression. -/
  | endingFirst
  | expression
deriving DecidableEq, Repr

namespace Approach

def isLiteral : Token → Bool
  | .literal _ => true
  | _ => false

def isLiteralOf (c : Char) : Token → Bool
  | .literal d => c == d
  | _ => false

def isEnding : List Token → Bool
  | .anyBytes :: .literal '.' :: ts =>
    ts.all fun t => isLiteral t && !isLiteralOf '.' t && !isLiteralOf '/' t
  | _ => false

/-- Whether the tokens, last first, begin with characters back to a dot. -/
def startsWithEnding : List Token → Bool
  | .literal c :: ts => c = '.' || (c ≠ '/' && startsWithEnding ts)
  | _ => false

def ofTokens (tokens : List Token) : Approach :=
  let (anyDepth, body) := match tokens with
    | .leadingDirectories :: body => (true, body)
    | body => (false, body)
  if !body.isEmpty && body.all isLiteral then
    if anyDepth && !body.any (isLiteralOf '/') then .lastName else .text
  else if anyDepth && isEnding body then .ending
  else if startsWithEnding tokens.reverse then .endingFirst
  else .expression

def needsName : Approach → Bool
  | lastName | ending | endingFirst => true
  | text | expression => false

end Approach

/-- A path that ends in a dot has no last name. -/
def hasName (path : List Char) : Bool := !path.isEmpty && path.getLast? != some '.'

/-- Whether the tokens match all of a path. Two stars alone match every path. -/
def accepts (tokens : List Token) (path : List Char) : Bool :=
  match tokens with
  | [.leadingDirectories] => true
  | _ =>
    let xs := Text.bytes path
    (!(Approach.ofTokens tokens).needsName || hasName path) &&
      (sequenceMarks tokens xs (Marks.atEnd xs)).headD false

end ObserverLint.Ignore
