import ObserverLint.Oracle.Declarations
import ObserverLint.Oracle.Types

namespace ObserverLint.Oracle

/-- The key under which a class declares a field. -/
def fieldKey (name : String) : String := "this." ++ name

/-- The shape of `new C(…)`. It is a stream if `C` is named like one, and a plain object if `C` is
a class of this file that is not derived from another. -/
def newShape (d : Declarations) (source : String) (p : Place) : Shape :=
  match p.child? .constructor with
  | none => .unknown
  | some callee =>
    let name := lastName (callee.text source)
    if name ∈ observableTypes then .ofObservable
    else if callee.kind != .identifier then .unknown
    else
      match (d.resolve? p name).bind fun found => d.derivedIn? found.1 name with
      | some false => .plain
      | _ => .unknown

/-- The shape of `this.name`. Nothing is known about members of other objects. -/
def memberShape (d : Declarations) (source : String) (p : Place) : Shape :=
  match p.child? .object, p.child? .property with
  | some object, some property =>
    if object.kind == .thisExpression then d.lookup p (fieldKey (property.text source))
    else .unknown
  | _, _ => .unknown

def identifierShape (d : Declarations) (source : String) (p : Place) : Shape :=
  match p.text source with
  | "undefined" => .plain
  | name => d.lookup p name

/-- The shape that `x as T` asserts: that of the second named child. -/
def assertedShape (source : String) (children : List Node) : Shape :=
  match children.filter Node.named with
  | _ :: type :: _ => typeShape source type
  | _ => .unknown

mutual

def exprShapeAt (d : Declarations) (source : String) (address : Address) (above : List Node) :
    Node → Shape
  | .mk label children =>
    match label.kind with
    | .parenthesized | .satisfiesExpression | .nonNullExpression =>
      firstExprShape d source (fun _ => true) address (.mk label children :: above) 0 children
    | .asExpression =>
      -- A type that says nothing leaves the decision to the expression.
      let asserted := assertedShape source children
      if asserted = .unknown then
        firstExprShape d source (fun _ => true) address (.mk label children :: above) 0 children
      else asserted
    | .typeAssertion =>
      firstExprShape d source (· != .typeArguments) address (.mk label children :: above) 0 children
    | .objectLiteral | .arrayLiteral | .stringLiteral | .templateString | .numberLiteral
    | .trueLiteral | .falseLiteral | .nullLiteral | .undefinedLiteral | .regexLiteral
    | .unaryExpression | .updateExpression => .plain
    | .arrowFunction | .functionExpression | .function | .generatorFunction => .ofFunction
    | .classExpression => .ofClass
    | .newExpression => newShape d source ⟨address, .mk label children, above⟩
    | .identifier => identifierShape d source ⟨address, .mk label children, above⟩
    | .memberExpression => memberShape d source ⟨address, .mk label children, above⟩
    | _ => .unknown

/-- The shape of the first named node of an accepted kind, these being the children number `i`,
`i + 1`, … of a node. -/
def firstExprShape (d : Declarations) (source : String) (accepts : Kind → Bool)
    (address : Address) (above : List Node) (i : Nat) : List Node → Shape
  | [] => .unknown
  | n :: ns =>
    if n.named && accepts n.kind then exprShapeAt d source (i :: address) above n
    else firstExprShape d source accepts address above (i + 1) ns

end

def exprShape (d : Declarations) (source : String) (p : Place) : Shape :=
  exprShapeAt d source p.address p.above p.node

end ObserverLint.Oracle
