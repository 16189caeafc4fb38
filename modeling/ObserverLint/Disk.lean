import ObserverLint.Path
import ObserverLint.Text.Utf8

namespace ObserverLint

/-- What a file holds: its text up to the first byte that belongs to no character, and the bytes from
there on. -/
structure Contents where
  text : String
  rest : List UInt8 := []
deriving DecidableEq, Repr, Inhabited

namespace Contents

def ofBytes (bytes : List UInt8) : Contents :=
  let (text, rest) := Text.decode bytes.length bytes
  ⟨String.ofList text, rest⟩

def bytes (c : Contents) : List UInt8 := Text.bytes c.text.toList ++ c.rest

def whole (c : Contents) : Bool := c.rest.isEmpty

end Contents

inductive Entry where
  | file (contents : Contents)
  | directory (entries : List (String × Entry))
deriving Inhabited

inductive FileFault where
  | missing
  | notDirectory
  | isDirectory
  | nameTooLong
  | nulInName
  | notText
deriving DecidableEq, Repr

def FileFault.message : FileFault → String
  | missing => "No such file or directory (os error 2)"
  | notDirectory => "Not a directory (os error 20)"
  | isDirectory => "Is a directory (os error 21)"
  | nameTooLong => "File name too long (os error 36)"
  | nulInName => "file name contained an unexpected NUL byte"
  | notText => "stream did not contain valid UTF-8"

namespace Entry

def isFile : Entry → Bool
  | file _ => true
  | directory _ => false

def child? (e : Entry) (name : String) : Option Entry :=
  match e with
  | file _ => none
  | directory entries => (entries.find? fun c => c.1 == name).map Prod.snd

/-- The entries of a directory with a new one under a name, in place of an old one if any. -/
def replace (name : String) (new : Entry) : List (String × Entry) → List (String × Entry)
  | [] => [(name, new)]
  | (n, e) :: entries =>
    if n = name then (n, new) :: entries else (n, e) :: replace name new entries

/-- The tree with the entry at the end of a chain of names changed. Directories that are missing on
the way are made, in place of files if need be. -/
def update (change : Option Entry → Entry) : List String → Option Entry → Entry
  | [], old => change old
  | name :: names, some (directory entries) =>
    directory (replace name (update change names ((directory entries).child? name)) entries)
  | name :: names, _ => directory [(name, update change names none)]

def insert (contents : Contents) (names : List String) (e : Entry) : Entry :=
  update (fun _ => file contents) names (some e)

/-- The entry itself if it is a directory, or an empty one. -/
def asDirectory : Option Entry → Entry
  | some (directory entries) => directory entries
  | _ => directory []

def makeDirectory (names : List String) (e : Entry) : Entry := update asDirectory names (some e)

end Entry

/-- An entry found on the way down a path, with the directories above it, nearest first. -/
structure Spot where
  entry : Entry
  /-- The names that lead here, last first. -/
  names : List String
  above : List Entry

namespace Spot

/-- The directory above; the topmost one is its own parent. -/
def up (s : Spot) : Spot :=
  match s.names, s.above with
  | _ :: names, e :: above => ⟨e, names, above⟩
  | _, _ => s

def maxNameBytes : Nat := 255

def step (s : Spot) (segment : List Char) : Except FileFault Spot :=
  match s.entry with
  | .file _ => .error .notDirectory
  | .directory _ =>
    match Path.component? segment with
    | some .up => .ok s.up
    | some (.name name) =>
      if maxNameBytes < name.utf8ByteSize then .error .nameTooLong
      else match s.entry.child? name with
      | some e => .ok ⟨e, name :: s.names, s.entry :: s.above⟩
      | none => .error .missing
    | _ => .ok s

def path (s : Spot) : Path := ⟨"/" ++ "/".intercalate s.names.reverse⟩

end Spot

/-- A tree of directories, the one that relative paths start from, and the one of the user. -/
structure Disk where
  top : Entry
  current : Path
  home : Option Path := none
deriving Inhabited

namespace Disk

def maxPathBytes : Nat := 4095

def find (d : Disk) (p : Path) : Except FileFault Spot :=
  if p.text.contains '\x00' then .error .nulInName
  else if p.text.isEmpty then .error .missing
  else if maxPathBytes < p.text.utf8ByteSize then .error .nameTooLong
  else (Path.segments (d.current.join p).text.toList).foldlM Spot.step ⟨d.top, [], []⟩

def contains (d : Disk) (p : Path) : Bool := (d.find p).toOption.isSome

def isFile (d : Disk) (p : Path) : Bool :=
  match d.find p with
  | .ok s => s.entry.isFile
  | .error _ => false

def contents (d : Disk) (p : Path) : Except FileFault Contents := do
  match (← d.find p).entry with
  | .file contents => .ok contents
  | .directory _ => .error .isDirectory

def readText (d : Disk) (p : Path) : Except FileFault String := do
  let contents ← d.contents p
  if contents.whole then .ok contents.text else .error .notText

def write (d : Disk) (name text : String) : Except FileFault Disk := do
  let here ← d.find d.current
  match here.entry.child? name with
  | some (.directory _) => .error .isDirectory
  | _ => .ok { d with top := d.top.insert { text } (here.names.reverse ++ [name]) }

end Disk

end ObserverLint
