import ObserverLint.Possibility
import ObserverLint.Tree.Node

namespace ObserverLint.Oracle

/-- One declaration of a name. Fields of a class are declared as `this.name`. -/
structure Binding where
  scope : Address
  name : String
  shape : Shape
deriving DecidableEq, Repr

structure ClassBinding where
  scope : Address
  name : String
  /-- Whether the class extends or implements something. -/
  derived : Bool
deriving DecidableEq, Repr

/-- What a file declares, in the order in which it was found. -/
structure Declarations where
  classes : List ClassBinding := []
  bindings : List Binding := []
deriving Repr, Inhabited

/-- The one shape that several declarations of a name leave possible. -/
def mergeAll? : List Shape → Option Shape
  | [] => none
  | s :: ss => some (ss.foldl Shape.merge s)

namespace Declarations

def shapeIn? (d : Declarations) (scope : Address) (name : String) : Option Shape :=
  mergeAll? <|
    (d.bindings.filter fun b => b.scope == scope && b.name == name).map Binding.shape

/-- The nearest scope at or above `p` that declares the name, with its shape there. -/
def resolve? (d : Declarations) (p : Place) (name : String) : Option (Address × Shape) :=
  p.selfAndAncestors.findSome? fun q =>
    (d.shapeIn? q.address name).map fun shape => (q.address, shape)

def lookup (d : Declarations) (p : Place) (name : String) : Shape :=
  match d.resolve? p name with
  | some (_, shape) => shape
  | none => .unknown

def derivedIn? (d : Declarations) (scope : Address) (name : String) : Option Bool :=
  match d.classes.filter fun c => c.scope == scope && c.name == name with
  | [] => none
  | found => some (found.any ClassBinding.derived)

def addBindings (d : Declarations) (bindings : List Binding) : Declarations :=
  { d with bindings := d.bindings ++ bindings }

def scopes (d : Declarations) : List Address := (d.bindings.map Binding.scope).eraseDups

def names (d : Declarations) : List (Address × String) :=
  (d.bindings.map fun b => (b.scope, b.name)).eraseDups

end Declarations

end ObserverLint.Oracle
