import ObserverLint.Ignore.File

namespace ObserverLint.Ignore

def isRepositoryTop (e : Entry) : Bool := (e.child? ".git").isSome || (e.child? ".jj").isSome

def firstLine (contents : Contents) : Except FileFault (Option (List Char)) :=
  if !contents.whole && !contents.text.contains '\n' then .error .notText
  else .ok (Text.lines contents.text.toList).head?

/-- The directory named by a `.git` file with this first line. -/
def linkedDir? (line : List Char) : Option Path :=
  let mark := "gitdir: ".toList
  if mark.isPrefixOf line then some ⟨String.ofList (line.drop mark.length)⟩ else none

/-- The directory with the list, given the line that names it. A line that starts with a dot is seen
from the directory it was found in. -/
def namedDir (dir : Path) (line : List Char) : Path :=
  let named : Path := ⟨String.ofList line⟩
  if ['.'].isPrefixOf line then dir.join named else named

def commonDir? (disk : Disk) (dir : Path) : Except RuleFault (Option Path) :=
  let file := dir.join ⟨"commondir"⟩
  match disk.contents file with
  | .error .isDirectory => .error (.inFile file .isDirectory)
  | .error _ => .ok none
  | .ok contents =>
    match firstLine contents with
    | .error fault => .error (.inFile file fault)
    | .ok line => .ok (line.map (namedDir dir))

/-- The directory with the exclude list. Where `.git` is a file, it names another directory, and the
file `commondir` in that one names the directory with the list. -/
def listDir? (disk : Disk) (path : Path) (e : Entry) : Except RuleFault (Option Path) :=
  let git := path.join ⟨".git"⟩
  match e.child? ".git" with
  | some (.file link) =>
    match firstLine link with
    | .error fault => .error (.inFile git fault)
    | .ok line =>
      match line.bind linkedDir? with
      | some dir => commonDir? disk dir
      | none => .ok none
  | _ => .ok (some git)

def Rules.ofRepository (disk : Disk) (path : Path) (e : Entry) : Rules :=
  match listDir? disk path e with
  | .error fault => { faults := [fault] }
  | .ok none => {}
  | .ok (some dir) =>
    let file := dir.join ⟨"info/exclude"⟩
    .ofFile file ((disk.find file).toOption.map Spot.entry)

end ObserverLint.Ignore
