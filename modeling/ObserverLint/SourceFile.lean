import ObserverLint.Dialect
import ObserverLint.Text.Quoted
import ObserverLint.Tree.Cursor

namespace ObserverLint

structure SourceFile where
  path : Path
  dialect : Dialect
  text : String
  tree : Node
  /-- Whether the parser had to skip or invent something. -/
  hasErrors : Bool := false
deriving Inhabited

/-- A parser: the tree of a text, and whether it had to skip or invent something. -/
abbrev Grammar := Dialect → String → Node × Bool

namespace SourceFile

def parse (grammar : Grammar) (path : Path) (dialect : Dialect) (text : String) : SourceFile :=
  let (tree, hasErrors) := grammar dialect text
  { path, dialect, text, tree, hasErrors }

def root (file : SourceFile) : Place := Place.root file.tree

def places (file : SourceFile) : List Place := file.root.walk

def calls (file : SourceFile) : List Place :=
  file.places.filter fun p => p.kind == .callExpression

def describe (file : SourceFile) : String :=
  "SourceFile \x7b path: " ++ Text.quoted file.path.text ++
    s!", dialect: {file.dialect.name}, len: {file.text.utf8ByteSize}, .. \x7d"

end SourceFile

end ObserverLint
