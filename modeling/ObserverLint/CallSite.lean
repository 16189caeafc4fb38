import ObserverLint.Tree.Node

namespace ObserverLint

inductive Callee where
  /-- A plain name. -/
  | identifier (name : Place)
  /-- A member of an object. -/
  | member (object property : Place)
  | other (place : Place)

namespace Callee

def ofPlace (p : Place) : Callee :=
  match p.kind, p.child? .object, p.child? .property with
  | .memberExpression, some object, some property => member object property
  | .identifier, _, _ => identifier p
  | _, _, _ => other p

/-- The called name: the identifier or the property. -/
def name? (source : String) : Callee → Option String
  | identifier name => some (name.text source)
  | member _ property => some (property.text source)
  | other _ => none

def isMember : Callee → Bool
  | member _ _ => true
  | _ => false

end Callee

structure CallSite where
  calleePlace : Place
  callee : Callee
  /-- The arguments in order, without the comments between them. -/
  arguments : List Place

namespace CallSite

def argumentsOf (list : Place) : List Place :=
  list.namedChildren.filter fun a => a.kind != .comment

/-- Reads a call. A template applied to a function is not one. -/
def ofPlace? (p : Place) : Option CallSite :=
  match p.kind, p.child? .function, p.child? .arguments with
  | .callExpression, some callee, some list =>
    if list.kind = .arguments then some ⟨callee, Callee.ofPlace callee, argumentsOf list⟩ else none
  | _, _, _ => none

def name? (source : String) (site : CallSite) : Option String := site.callee.name? source

end CallSite

end ObserverLint
