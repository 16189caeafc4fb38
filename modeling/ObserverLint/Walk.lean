import ObserverLint.Ignore.Repository
import ObserverLint.Ignore.User

namespace ObserverLint.Walk

open Ignore

/-- The rules that one directory brings. Those of `.gitignore` and of the list of the repository
count only inside a repository, and not beyond its topmost directory. -/
structure Level where
  plain : Rules
  git : Rules
  exclude : Rules
  /-- Whether the directory is the top of a repository. -/
  isRepository : Bool

structure Setting where
  disk : Disk
  /-- Whether `.gitignore` files count. -/
  respectGitignore : Bool
  /-- The rules that the user has for all repositories. -/
  user : Rules

namespace Setting

def ofDisk (disk : Disk) (respectGitignore : Bool) : Setting where
  disk
  respectGitignore
  user := .ofUser disk

def level (s : Setting) (path : Path) (e : Entry) : Level where
  plain := .ofFile (path.join ⟨".ignore"⟩) (e.child? ".ignore")
  git :=
    if s.respectGitignore then .ofFile (path.join ⟨".gitignore"⟩) (e.child? ".gitignore") else {}
  exclude := .ofRepository s.disk path e
  isRepository := isRepositoryTop e

/-- The rules of a directory above the root of a walk. Its repository counts only if `.gitignore`
files do. -/
def outerLevel (s : Setting) (spot : Spot) : Level :=
  let level := s.level spot.path spot.entry
  { level with isRepository := s.respectGitignore && level.isRepository }

/-- A path as the rules of the user see it: from the current directory on, if its text starts with
that of the current directory. -/
def pathForUser (s : Setting) (path : Path) : List Char :=
  let current := s.disk.current.text.toList
  let text := path.text.toList
  if current.isPrefixOf text then
    match text.drop current.length with
    | '/' :: rest => rest
    | rest => rest
  else text

end Setting

def Level.faults (l : Level) : List RuleFault := l.plain.faults ++ l.git.faults ++ l.exclude.faults

/-- The directories around an entry, nearest first, each with the path of the entry below it. -/
abbrev Surroundings := List (Level × List Char)

/-- The first verdict of some kind of rules, going outwards. -/
def firstVerdict? (rules : Level → Rules) (isDirectory : Bool) : Surroundings → Option Verdict
  | [] => none
  | (level, path) :: outer =>
    ((rules level).verdict? path isDirectory).orElse fun _ => firstVerdict? rules isDirectory outer

def withinRepository : Surroundings → Surroundings
  | [] => []
  | (level, path) :: outer =>
    (level, path) :: if level.isRepository then [] else withinRepository outer

def repositoryVerdict? (s : Setting) (around : Surroundings) (path : Path) (isDirectory : Bool) :
    Option Verdict :=
  let inner := withinRepository around
  (firstVerdict? Level.git isDirectory inner).orElse fun _ =>
    (firstVerdict? Level.exclude isDirectory inner).orElse fun _ =>
      s.user.verdict? (s.pathForUser path) isDirectory

/-- Whether an entry is ruled out. Of the kinds of rules the first to speak decides. -/
def isIgnored (s : Setting) (around : Surroundings) (path : Path) (isDirectory : Bool) : Bool :=
  let verdict := (firstVerdict? Level.plain isDirectory around).orElse fun _ =>
    -- Outside of a repository neither `.gitignore` nor the rules of the user count.
    if around.any (·.1.isRepository) then repositoryVerdict? s around path isDirectory else none
  verdict = some .ignored

def descend (name : String) (around : Surroundings) : Surroundings :=
  around.map fun (level, path) =>
    (level, if path.isEmpty then name.toList else path ++ '/' :: name.toList)

mutual

/-- An entry at a path and all below it that is not ruled out. The surroundings already name it. -/
def visit (s : Setting) (around : Surroundings) (path : Path) : Entry → List Path
  | .file _ => [path]
  | .directory entries =>
    path :: visitAll s ((s.level path (.directory entries), []) :: around) path entries

def visitAll (s : Setting) (around : Surroundings) (path : Path) : List (String × Entry) → List Path
  | [] => []
  | (name, e) :: entries =>
    let inside := descend name around
    let child := path.join ⟨name⟩
    (if isIgnored s inside child (!e.isFile) then [] else visit s inside child e) ++
      visitAll s around path entries

end

inductive Fault where
  | unreachable (path : Path) (fault : FileFault)
  | badRules (faults : List RuleFault)

def Fault.message : Fault → String
  | unreachable path fault =>
    s!"{path.text}: IO error for operation on {path.text}: {fault.message}"
  | badRules faults => "\n".intercalate (faults.map RuleFault.message)

/-- The directories above a spot with the path of the spot below them, nearest first. -/
def parents (s : Spot) : List (Spot × List Char) :=
  go s.names s.above []
where
  go : List String → List Entry → List Char → List (Spot × List Char)
    | name :: names, e :: above, below =>
      let below := if below.isEmpty then name.toList else name.toList ++ '/' :: below
      (⟨e, names, above⟩, below) :: go names above below
    | _, _, _ => []

def Setting.around (s : Setting) (spot : Spot) : Surroundings :=
  (parents spot).map fun above => (s.outerLevel above.1, above.2)

def entries (disk : Disk) (root : Path) (respectGitignore : Bool) : Except Fault (List Path) :=
  match disk.find root with
  | .error e => .error (.unreachable root e)
  | .ok spot =>
    if spot.entry.isFile then .ok [root]
    else
      let setting := Setting.ofDisk disk respectGitignore
      let around := setting.around spot
      match around.reverse.flatMap fun (level, _) => level.faults with
      | [] => .ok (visit setting around root spot.entry)
      | faults => .error (.badRules faults)

end ObserverLint.Walk
