import ObserverLint.CommandLine.Run
import ObserverLint.Json.Parser
import ObserverLint.Tree.Json

namespace ObserverLint.Main

open CommandLine

/-- A file or a directory with all below it; links to directories are not followed. -/
partial def loadTree (path : String) : IO Entry := do
  let here := (← IO.currentDir) / path
  if (← here.symlinkMetadata).type == .dir then
    let entries ← (← here.readDir).toList.mapM fun child => do
      return (child.fileName, ← loadTree child.path.toString)
    return .directory entries
  else
    try
      return .file (.ofBytes (← IO.FS.readBinFile here).toList)
    catch _ => return .file ⟨"", [0xFF]⟩

def namesOf (path : String) : List String :=
  ((path.splitOn "/").foldl (fun names n =>
    if n = ".." then names.drop 1 else if n.isEmpty || n = "." then names else n :: names) []).reverse

/-- The files that count in the directories above those of a run. -/
def outerFiles : List Path :=
  [⟨".ignore"⟩, ⟨".gitignore"⟩, ⟨".git"⟩, ⟨".git/info/exclude"⟩, ⟨".jj"⟩, ⟨"rxlint.toml"⟩,
    ⟨".rxlint.toml"⟩, ⟨"package.json"⟩]

/-- Adds a file to what is known of the disk, or a directory without what it holds, if it is there. -/
def addEntry (disk : Disk) (path : Path) : IO Disk := do
  let full := (disk.current.join path).text
  let here := (← IO.currentDir) / full
  if ← here.isDir then return { disk with top := disk.top.makeDirectory (namesOf full) }
  else if ← here.pathExists then
    let contents := Contents.ofBytes (← IO.FS.readBinFile here).toList
    return { disk with top := disk.top.insert contents (namesOf full) }
  else return disk

def addLinked (disk : Disk) (dir : Path) : IO Disk := do
  match (disk.contents (dir.join ⟨".git"⟩)).toOption.bind fun c => (Ignore.firstLine c).toOption with
  | some (some line) =>
    match Ignore.linkedDir? line with
    | some linked =>
      let disk ← addEntry disk (linked.join ⟨"commondir"⟩)
      match Ignore.commonDir? disk linked with
      | .ok (some common) => addEntry disk (common.join ⟨"info/exclude"⟩)
      | _ => return disk
    | none => return disk
  | _ => return disk

def addTree (disk : Disk) (path : String) : IO Disk := do
  let here := (← IO.currentDir) / path
  if ← here.pathExists then
    let real := (← IO.FS.realPath here).toString
    let dirs := ConfigFile.ancestors ⟨real⟩
    let disk ← ((dirs.drop 1).flatMap fun dir => outerFiles.map dir.join).foldlM addEntry disk
    let tree ← loadTree real
    let top := Entry.update (fun _ => tree) (namesOf real) (some disk.top)
    dirs.foldlM addLinked { disk with top }
  else return disk

def addUser (disk : Disk) : IO Disk :=
  match disk.home with
  | none => return disk
  | some home => do
    let disk ← (Ignore.settingsFiles.map home.join).foldlM addEntry disk
    addEntry disk (Ignore.userFile disk home)

def pathsOf (arguments : List String) (globalDir : Option Path) : List String :=
  let given := match parse arguments with
    | .ok i =>
      (match i.command with
        | .check options => [options.path.text]
        | _ => []) ++ (i.config.map Path.text).toList
    | .error _ => []
  "." :: given ++ (globalDir.map Path.text).toList

/-- The texts in a directory that have a tree beside them, with their trees. -/
partial def treesIn (e : Entry) : List (String × Node × Bool) :=
  match e with
  | .file _ => []
  | .directory entries => entries.flatMap fun (name, child) =>
    match child, e.child? (name ++ ".tree.json") with
    | .file source, some (.file tree) =>
      match (Json.parse? tree.text).bind Node.ofJson? with
      | some parsed => [(source.text, parsed)]
      | none => []
    | child, _ => treesIn child

/-- The parser that knows these texts; any other text is one it cannot make sense of. -/
def grammarOf (top : Entry) : Grammar :=
  let trees := treesIn top
  fun _ text =>
    match trees.find? fun t => t.1 == text with
    | some (_, parsed) => parsed
    | none => (.mk ⟨.other "program", none, true, 0, 0⟩ [], true)

/-- Runs the program on the files around it. Parsing is left to another one, which puts the syntax
tree of `app.ts` into `app.ts.tree.json` beside it, and so is drawing: violations are printed on one
line each. -/
def program (arguments : List String) : IO UInt32 := do
  let environment : Environment := {
    disk := {
      top := .directory []
      current := ⟨(← IO.currentDir).toString⟩
      home := (← IO.getEnv "HOME").map Path.mk }
    grammar := grammarOf (.directory [])
    configDir := (← IO.getEnv "RXLINT_CONFIG_DIR").map Path.mk
    logFilter := ← IO.getEnv "RXLINT_LOG" }
  let paths := pathsOf arguments environment.globalDir
  let disk ← addUser (← paths.foldlM addTree environment.disk)
  let outcome := run { environment with disk, grammar := grammarOf disk.top } arguments
  let config : Path := ⟨configName⟩
  match outcome.disk.readText config with
  | .ok text =>
    if (disk.readText config).toOption != some text then IO.FS.writeFile configName text
  | .error _ => pure ()
  IO.print outcome.output
  IO.eprint outcome.complaint
  return UInt32.ofNat outcome.exitCode

end ObserverLint.Main

def main (arguments : List String) : IO UInt32 := ObserverLint.Main.program arguments
