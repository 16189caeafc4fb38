import ObserverLint.Config.Basic
import ObserverLint.Disk
import ObserverLint.Log

namespace ObserverLint

structure ConfigFile where
  path : Path
  /-- Whether it is the one of the user, for all projects. -/
  isGlobal : Bool := false
deriving DecidableEq, Repr

namespace ConfigFile

/-- The names of a project's configuration file, the preferred one first. -/
def names : List Path := [⟨"rxlint.toml"⟩, ⟨".rxlint.toml"⟩]

def packageFile : Path := ⟨"package.json"⟩

def globalFile : Path := ⟨"config.toml"⟩

/-- A path and those above it; `n` bounds how many there are above. -/
def upwards : Nat → Path → List Path
  | 0, p => [p]
  | n + 1, p =>
    match p.parent? with
    | some q => p :: upwards n q
    | none => [p]

def ancestors (p : Path) : List Path := upwards p.text.length p

def inDirectory? (disk : Disk) (dir : Path) : Option Path :=
  (names.map dir.join).find? disk.isFile

/-- The first configuration file in these directories, up to the first with a `package.json`. -/
def search? (disk : Disk) : List Path → Option Path
  | [] => none
  | dir :: dirs =>
    match inDirectory? disk dir with
    | some path => some path
    -- The directory of a package is still searched, those above it are not.
    | none => if disk.isFile (dir.join packageFile) then none else search? disk dirs

/-- Where a search starts: a path without dots where there is one. -/
def startOf (disk : Disk) (start : Path) : Path :=
  let start := if start.text.isEmpty then ⟨"."⟩ else start
  match disk.find start with
  | .ok spot => spot.path
  | .error _ => start

def ofProject? (disk : Disk) (start : Path) : Option Path :=
  search? disk (ancestors (startOf disk start))

def ofUser? (disk : Disk) (globalDir : Option Path) : Option ConfigFile := do
  let path := (← globalDir).join globalFile
  if disk.isFile path then some ⟨path, true⟩ else none

/-- A file given by the user holds, or else one found in the directory of the run or above it, or
else the one that the user has for all projects. -/
def resolve? (disk : Disk) (start : Path) (explicit globalDir : Option Path) : Option ConfigFile :=
  match explicit with
  | some path => some ⟨path, false⟩
  | none =>
    match ofProject? disk start with
    | some path => some ⟨path, false⟩
    | none => ofUser? disk globalDir

def resolveLog (disk : Disk) (start : Path) (explicit : Option Path) : List LogEntry :=
  match explicit, ofProject? disk start with
  | none, some path => [⟨.debug, .configSearch, s!"Found project config: {path.text}"⟩]
  | _, _ => []

end ConfigFile

end ObserverLint
