import ObserverLint.Possibility
import ObserverLint.Tree.Node

namespace ObserverLint.Oracle

def observableTypes : List String :=
  ["Observable", "Subject", "BehaviorSubject", "ReplaySubject", "AsyncSubject",
   "ConnectableObservable", "GroupedObservable"]

/-- Types of observers, which are objects and not callbacks. -/
def observerTypes : List String := ["Observer", "PartialObserver", "Subscriber"]

def plainTypes : List String :=
  ["Array", "ReadonlyArray", "Promise", "Map", "Set", "WeakMap", "WeakSet", "Date", "RegExp",
   "Error", "String", "Number", "Boolean", "Record"]

def lastName (qualified : String) : String :=
  String.ofList (qualified.toList.reverse.takeWhile (· ≠ '.')).reverse

def typeNameShape (qualified : String) : Shape :=
  let name := lastName qualified
  if name ∈ observableTypes then .ofObservable
  else if name = "Function" then .ofFunction
  else if name ∈ observerTypes ∨ name ∈ plainTypes then .plain
  else .unknown

mutual

def typeShape (source : String) : Node → Shape
  | .mk label children =>
    match label.kind with
    | .annotatedType | .parenthesizedType => firstTypeShape source children
    | .predefinedType =>
      match Text.slice source label.start label.stop with
      | "any" | "unknown" | "object" => .unknown
      | _ => .plain
    | .literalType | .templateLiteralType | .arrayType | .tupleType | .readonlyType => .plain
    | .objectType =>
      if children.any fun c => c.named && c.kind == .callSignature then .ofFunction else .plain
    | .functionType => .ofFunction
    | .typeIdentifier | .nestedTypeIdentifier =>
      typeNameShape (Text.slice source label.start label.stop)
    | .genericType =>
      match children.find? fun c => c.field == some .name with
      | some name => typeNameShape (name.text source)
      | none => .unknown
    | .unionType | .intersectionType => .any (typeShapes source children)
    | _ => .unknown

def firstTypeShape (source : String) : List Node → Shape
  | [] => .unknown
  | n :: ns => if n.named then typeShape source n else firstTypeShape source ns

def typeShapes (source : String) : List Node → List Shape
  | [] => []
  | n :: ns => if n.named then typeShape source n :: typeShapes source ns else typeShapes source ns

end

end ObserverLint.Oracle
