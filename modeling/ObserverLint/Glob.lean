import ObserverLint.Text.Marks

namespace ObserverLint

namespace Glob

structure Span where
  first : Char
  last : Char
deriving DecidableEq, Repr

def Span.holds (s : Span) (c : Char) : Bool := s.first ≤ c && c ≤ s.last

/-- A star or a question mark matches slashes too. Two stars that fill a whole segment of the path
stand for any number of directories. -/
inductive Token where
  | char (c : Char)
  | anyChar
  | within (spans : List Span)
  | outside (spans : List Span)
  | anyText
  | directories
deriving DecidableEq, Repr

inductive Cause where
  | tooManyStars
  | partialSegment
  | badRange
deriving DecidableEq, Repr

def Cause.message : Cause → String
  | tooManyStars => "wildcards are either regular `*` or recursive `**`"
  | partialSegment => "recursive wildcards must form a single path component"
  | badRange => "invalid range pattern"

structure Fault where
  position : Nat
  cause : Cause
deriving DecidableEq, Repr

def Fault.message (f : Fault) : String :=
  s!"Pattern syntax error near position {f.position}: {f.cause.message}"

/-- The spans in a set: a dash between two characters makes a range of them. -/
def spans : List Char → List Span
  | a :: '-' :: b :: cs => ⟨a, b⟩ :: spans cs
  | a :: cs => ⟨a, a⟩ :: spans cs
  | [] => []

def cutSet? : List Char → Option (List Char × List Char)
  | [] => none
  | ']' :: cs => some ([], cs)
  | c :: cs => (cutSet? cs).map fun (set, rest) => (c :: set, rest)

/-- The set after an opening bracket. Its first character is never the closing bracket. -/
def set? : List Char → Option (Token × List Char)
  | '!' :: c :: cs => (cutSet? cs).map fun (set, rest) => (.outside (spans (c :: set)), rest)
  | '!' :: [] => none
  | c :: cs => (cutSet? cs).map fun (set, rest) => (.within (spans (c :: set)), rest)
  | [] => none

def stars : List Char → Nat
  | '*' :: cs => stars cs + 1
  | _ => 0

/-- Two stars at a position must stand at the start or after a slash, and before a slash or at the
end; the slash after them belongs to them. -/
def directories? (position : Nat) (fresh : Bool) (rest : List Char) :
    Except Fault (Nat × List Char) :=
  if fresh then
    match rest with
    | [] => .ok (2, [])
    | '/' :: cs => .ok (3, cs)
    | _ => .error ⟨position + 2, .partialSegment⟩
  else .error ⟨position - 1, .partialSegment⟩

/-- Reads the pattern from a position on; `fresh` says whether a segment of the path starts there,
and `n` bounds the characters left. -/
def tokens? : Nat → Nat → Bool → List Char → Except Fault (List Token)
  | 0, _, _, _ => .ok []
  | _ + 1, _, _, [] => .ok []
  | n + 1, position, fresh, c :: cs =>
    if c = '?' then (tokens? n (position + 1) false cs).map (.anyChar :: ·)
    else if c = '*' then
      match stars (c :: cs) with
      | 0 | 1 => (tokens? n (position + 1) false cs).map (.anyText :: ·)
      | 2 => do
        let (used, rest) ← directories? position fresh (cs.drop 1)
        let tokens ← tokens? n (position + used) true rest
        .ok (.directories :: tokens)
      | _ => .error ⟨position + 2, .tooManyStars⟩
    else if c = '[' then
      match set? cs with
      | none => .error ⟨position, .badRange⟩
      | some (token, rest) =>
        (tokens? n (position + 1 + (cs.length - rest.length)) false rest).map (token :: ·)
    else (tokens? n (position + 1) (c = '/') cs).map (.char c :: ·)

def Token.holds : Token → Char → Bool
  | char d, c => c = d
  | anyChar, _ => true
  | within spans, c => spans.any (·.holds c)
  | outside spans, c => !spans.any (·.holds c)
  | anyText, _ => false
  | directories, _ => false

open Text

/-- The marks of a text for a token, given those for what comes after it. Two stars match nothing, or
up to a slash, or all that is left. -/
def Token.marks : Token → List Char → List Bool → List Bool
  | anyText, cs, later => Marks.many (fun _ => true) cs later
  | directories, cs, later =>
    Marks.either later (Marks.either (Marks.through (· = '/') cs later) (Marks.toEnd later))
  | t, cs, later => Marks.one t.holds cs later

def accepts (ts : List Token) (cs : List Char) : Bool :=
  (ts.foldr (fun t later => t.marks cs later) (Marks.atEnd cs)).headD false

end Glob

structure Glob where
  tokens : List Glob.Token
deriving DecidableEq, Repr

namespace Glob

def parse (pattern : String) : Except Fault Glob :=
  (tokens? pattern.length 0 true pattern.toList).map Glob.mk

def isMatch (g : Glob) (text : String) : Bool := accepts g.tokens text.toList

end Glob

end ObserverLint
