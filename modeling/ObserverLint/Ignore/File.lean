import ObserverLint.Disk
import ObserverLint.Ignore.Expression
import ObserverLint.Text.Blank
import ObserverLint.Text.Lines

namespace ObserverLint.Ignore

structure Rule where
  tokens : List Token
  /-- Whether what matches is kept, rather than ignored. -/
  keeps : Bool
  onlyDirectories : Bool

inductive Verdict where
  | ignored
  | kept
deriving DecidableEq, Repr

inductive LineFault where
  | badPattern (line : String) (fault : Fault)
  | unreadable (fault : FileFault)
deriving DecidableEq, Repr

def LineFault.message : LineFault → String
  | badPattern line fault => s!"error parsing glob '{line}': {fault.message}"
  | unreadable fault => fault.message

def endsWith (cs ending : List Char) : Bool := ending.isSuffixOf cs

/-- Takes a final slash off a pattern, with a backslash before it. -/
def withoutSlash (cs : List Char) : List Char :=
  match cs.reverse with
  | '/' :: '\\' :: rest => rest.reverse
  | '/' :: rest => rest.reverse
  | _ => cs

/-- A pattern without a slash may match at any depth. -/
def atAnyDepth (anchored : Bool) (cs : List Char) : List Char :=
  if anchored || cs.contains '/' || "**/".toList.isPrefixOf cs || cs = "**".toList then cs
  else "**/".toList ++ cs

/-- A pattern for all that is below a directory does not match the directory itself. -/
def belowOnly (cs : List Char) : List Char :=
  if endsWith cs "/**".toList then cs ++ "/*".toList else cs

/-- The pattern of a line: whether it keeps, whether it is anchored, and its text. -/
def leadingMarks (line : List Char) : Bool × Bool × List Char :=
  let anchor : List Char → Bool × List Char
    | '/' :: cs => (true, cs)
    | cs => (false, cs)
  match line with
  | '\\' :: '!' :: cs => (false, false, '!' :: cs)
  | '\\' :: '#' :: cs => (false, false, '#' :: cs)
  | '!' :: cs => (true, anchor cs)
  | cs => (false, anchor cs)

/-- Reads a line; comments and empty lines hold no rule. -/
def Rule.parse (line : List Char) : Except LineFault (Option Rule) :=
  if ['#'].isPrefixOf line then .ok none
  else
    let line := if endsWith line "\\ ".toList then line else Text.trimEnd line
    if line.isEmpty then .ok none
    else
      let (keeps, anchored, cs) := leadingMarks line
      let onlyDirectories := endsWith cs ['/']
      let pattern := belowOnly (atAnyDepth anchored (withoutSlash cs))
      match read pattern.length none false {} [] pattern with
      | .ok tokens => .ok (some ⟨tokens, keeps, onlyDirectories⟩)
      | .error e => .error (.badPattern (String.ofList line) e)

/-- A fault in an ignore file, or in a file that leads to one. -/
inductive RuleFault where
  | inLine (file : Path) (number : Nat) (fault : LineFault)
  | inFile (file : Path) (fault : FileFault)
  | tooDeep (fault : DepthFault)

def RuleFault.message : RuleFault → String
  | inLine file number fault => s!"{file.text}: line {number}: {fault.message}"
  | inFile file fault => s!"{file.text}: {fault.message}"
  | tooDeep fault => fault.message

structure Rules where
  rules : List Rule := []
  faults : List RuleFault := []

/-- The lines of a file that can be read. The one with a byte that belongs to no character cannot,
nor can those after it. -/
def readableLines (contents : Contents) : List (List Char) :=
  let text := match contents.text.toList with
    | '\ufeff' :: cs => cs.dropWhile (· = '\ufeff')
    | cs => cs
  if contents.whole then Text.lines text
  else Text.lines (text.reverse.dropWhile (· ≠ '\n')).reverse

def lineFaults (contents : Contents) : List (Nat × LineFault) :=
  let lines := readableLines contents
  let faults := lines.zipIdx.filterMap fun (line, i) =>
    match Rule.parse line with
    | .ok _ => none
    | .error e => some (i + 1, e)
  if contents.whole then faults else faults ++ [(lines.length + 1, .unreadable .notText)]

/-- The faults that count: trouble with reading alone does not. -/
def notable : List (Nat × LineFault) → List (Nat × LineFault)
  | [(_, .unreadable _)] => []
  | faults => faults

def Rules.ofContents (file : Path) (contents : Contents) : Rules :=
  let rules := (readableLines contents).filterMap fun line =>
    match Rule.parse line with
    | .ok rule => rule
    | .error _ => none
  let faults := (notable (lineFaults contents)).map fun (n, fault) => .inLine file n fault
  match DepthFault.find? (rules.map Rule.tokens) with
  | some fault => ⟨[], faults ++ [.tooDeep fault]⟩
  | none => ⟨rules, faults⟩

/-- The rules in a file, if it is there. A file that cannot be read at all has none. -/
def Rules.ofFile (file : Path) : Option Entry → Rules
  | some (.file contents) => .ofContents file contents
  | _ => {}

/-- The last rule that matches decides. -/
def Rules.verdict? (r : Rules) (path : List Char) (isDirectory : Bool) : Option Verdict :=
  (r.rules.reverse.find? fun rule =>
    (!rule.onlyDirectories || isDirectory) && accepts rule.tokens path).map fun rule =>
      if rule.keeps then .kept else .ignored

end ObserverLint.Ignore
