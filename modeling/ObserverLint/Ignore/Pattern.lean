namespace ObserverLint.Ignore

/-- Unlike in patterns that exclude files, a star or a question mark does not match a slash. -/
inductive Token where
  | literal (c : Char)
  /-- One byte other than a slash. -/
  | anyByte
  /-- Any bytes other than slashes. -/
  | anyBytes
  /-- Two stars at the front, with the slash after them. -/
  | leadingDirectories
  /-- Two stars in the middle, with the slashes around them. -/
  | innerDirectories
  /-- Two stars at the end, with the slash before them. -/
  | everythingBelow
  | set (negated : Bool) (ranges : List (Char × Char))
  /-- Alternatives; without any, nothing at all. -/
  | group (branches : List (List Token))

inductive Fault where
  | unopenedGroup
  | unclosedGroup
  | danglingEscape
  | badRange (first last : Char)
deriving DecidableEq, Repr

def Fault.message : Fault → String
  | unopenedGroup => "unopened alternate group; missing '\x7b' (maybe escape '\x7d' with '[\x7d]'?)"
  | unclosedGroup => "unclosed alternate group; missing '\x7d' (maybe escape '\x7b' with '[\x7b]'?)"
  | danglingEscape => "dangling '\\'"
  | badRange first last => s!"invalid range; '{first}' > '{last}'"

/-- The alternatives of an open group: those complete, and the tokens of the one at hand, both last
first. -/
structure Frame where
  finished : List (List Token) := []
  branch : List Token := []

namespace Frame

def push (f : Frame) (t : Token) : Frame := { f with branch := t :: f.branch }

def next (f : Frame) : Frame := ⟨f.branch.reverse :: f.finished, []⟩

def isVoid : Token → Bool
  | .group [] => true
  | _ => false

/-- The whole group as a token. An alternative that holds nothing, or empty groups only, does not
count. -/
def close (f : Frame) : Token :=
  .group (f.next.finished.reverse.filter fun branch => !branch.all isVoid)

/-- Puts two stars in place of the slash before them; after other such stars nothing changes. -/
def pushDirectories (f : Frame) (t : Token) : Frame :=
  match f.branch with
  | .leadingDirectories :: _ => f
  | .everythingBelow :: _ => f
  | _ :: branch => { f with branch := t :: branch }
  | [] => f.push t

end Frame

/-- What two stars stand for, given what stands before and after them, and the rest of the pattern.
Unless they fill a whole segment they are two single stars. -/
def doubleStar (previous : Option Char) (inGroup : Bool) (f : Frame) (cs : List Char) :
    Frame × Option Char × List Char :=
  let plain := ((f.push .anyBytes).push .anyBytes, some '*', cs)
  if f.branch.isEmpty then
    match cs with
    | [] => (f.push .leadingDirectories, none, [])
    | '/' :: rest => (f.push .leadingDirectories, some '/', rest)
    | _ => plain
  else if previous = some '/' ∨ (inGroup ∧ (previous = some ',' ∨ previous = some '{')) then
    match cs with
    | [] => (f.pushDirectories .everythingBelow, none, [])
    | '/' :: rest => (f.pushDirectories .innerDirectories, some '/', rest)
    | c :: _ =>
      if inGroup ∧ (c = ',' ∨ c = '}') then (f.pushDirectories .everythingBelow, some '*', cs)
      else plain
  else plain

/-- The ranges read so far, last first, and whether a dash has opened one more. -/
structure SetDraft where
  ranges : List (Char × Char) := []
  isOpen : Bool := false

namespace SetDraft

def close (d : SetDraft) (c : Char) : Except Fault SetDraft :=
  match d.ranges with
  | (a, _) :: ranges => if c < a then .error (.badRange a c) else .ok ⟨(a, c) :: ranges, false⟩
  | [] => .ok d

def add (d : SetDraft) (c : Char) : SetDraft := ⟨(c, c) :: d.ranges, false⟩

/-- The ranges in order; a dash that ends the set stands for itself. -/
def finish (d : SetDraft) : List (Char × Char) :=
  (if d.isOpen then ('-', '-') :: d.ranges else d.ranges).reverse

end SetDraft

def setBody (first : Bool) (d : SetDraft) :
    List Char → Except Fault (Option (List (Char × Char) × List Char))
  | [] => .ok none
  | c :: cs =>
    if first then setBody false (d.add c) cs
    else if c = ']' then .ok (some (d.finish, cs))
    else if d.isOpen then
      match d.close c with
      | .ok d => setBody false d cs
      | .error e => .error e
    else if c = '-' then setBody false { d with isOpen := true } cs
    else setBody false (d.add c) cs

def set (cs : List Char) : Except Fault (Option (Token × List Char)) :=
  let (negated, cs) := match cs with
    | '!' :: rest => (true, rest)
    | '^' :: rest => (true, rest)
    | cs => (false, cs)
  (setBody true {} cs).map fun found => found.map fun (ranges, rest) => (.set negated ranges, rest)

/-- Reads a pattern. A bracket that is never closed stands for itself, as do all after it, which
`literalBrackets` keeps in mind; `n` bounds the characters left. -/
def read : Nat → Option Char → Bool → Frame → List Frame → List Char → Except Fault (List Token)
  | _, _, _, f, [], [] => .ok f.branch.reverse
  | _, _, _, _, _ :: _, [] => .error .unclosedGroup
  | 0, _, _, f, _, _ :: _ => .ok f.branch.reverse
  | n + 1, previous, literalBrackets, f, outer, c :: cs =>
    if c = '?' then read n (some c) literalBrackets (f.push .anyByte) outer cs
    else if c = '*' then
      match cs with
      | '*' :: rest =>
        let (f, previous, rest) := doubleStar previous (!outer.isEmpty) f rest
        read n previous literalBrackets f outer rest
      | _ => read n (some c) literalBrackets (f.push .anyBytes) outer cs
    else if c = '[' ∧ !literalBrackets then
      match set cs with
      | .error e => .error e
      | .ok none => read n (some c) true (f.push (.literal c)) outer cs
      | .ok (some (token, rest)) => read n (some ']') literalBrackets (f.push token) outer rest
    else if c = '{' then read n (some c) literalBrackets {} (f :: outer) cs
    else if c = '}' then
      match outer with
      | [] => .error .unopenedGroup
      | g :: outer => read n (some c) literalBrackets (g.push f.close) outer cs
    else if c = ',' ∧ !outer.isEmpty then read n (some c) literalBrackets f.next outer cs
    else if c = '\\' then
      match cs with
      | [] => .error .danglingEscape
      | d :: rest => read n (some d) literalBrackets (f.push (.literal d)) outer rest
    else read n (some c) literalBrackets (f.push (.literal c)) outer cs

end ObserverLint.Ignore
