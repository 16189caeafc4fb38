import ObserverLint.Oracle.Expressions
import ObserverLint.Oracle.Scope
import ObserverLint.SourceFile

namespace ObserverLint.Oracle

def classAt? (source : String) (p : Place) : Option ClassBinding :=
  match p.kind with
  | .classDeclaration | .abstractClassDeclaration =>
    match p.child? .name, p.declaringScope? false with
    | some name, some scope =>
      some ⟨scope.address, name.text source,
        p.namedChildren.any fun c => c.kind == .classHeritage⟩
    | _, _ => none
  | _ => none

mutual

/-- The names a pattern binds. Only a name that is the whole pattern has the given shape; nothing
is known about the parts of a destructured value. -/
def patternNames (source : String) (shape : Shape) : Node → List (String × Shape)
  | .mk label children =>
    match label.kind with
    | .identifier | .shorthandPattern => [(Text.slice source label.start label.stop, shape)]
    | _ => partNames source children

def partNames (source : String) : List Node → List (String × Shape)
  | [] => []
  | n :: ns =>
    if n.named && n.kind != .annotatedType then
      patternNames source .unknown n ++ partNames source ns
    else partNames source ns

end

def bindPattern (source : String) (scope : Place) (pattern : Place) (shape : Shape) :
    List Binding :=
  (patternNames source shape pattern.node).map fun (name, shape) => ⟨scope.address, name, shape⟩

/-- The shape a declaration gives: that of its type, or else of its value. -/
def bindingShape (d : Declarations) (source : String) (p : Place) : Shape :=
  match p.child? .type, p.child? .value with
  | some type, _ => typeShape source type.node
  | none, some value => exprShape d source value
  | none, none => .unknown

def bindImport (source : String) (p name : Place) : List Binding :=
  match p.declaringScope? false with
  | some scope => [⟨scope.address, name.text source, .unknown⟩]
  | none => []

def isParameterProperty (p : Place) : Bool :=
  p.children.any fun c => c.kind == .accessibilityModifier || c.kind == .readonlyModifier

def parameterShape (source : String) (p : Place) : Shape :=
  match p.child? .type with
  | some type => typeShape source type.node
  | none => .unknown

/-- The entry `this.name` of a parameter that is a field of its class as well. -/
def parameterField (source : String) (p : Place) : List Binding :=
  match p.child? .pattern, p.declaringScope? true, p.enclosingClassBody? with
  | some pattern, some _, some body =>
    if isParameterProperty p && pattern.kind == .identifier then
      [⟨body.address, fieldKey (pattern.text source), parameterShape source p⟩]
    else []
  | _, _, _ => []

def parameterNames (source : String) (p : Place) : List Binding :=
  match p.child? .pattern, p.declaringScope? true with
  | some pattern, some scope => bindPattern source scope pattern (parameterShape source p)
  | _, _ => []

/-- The pattern of a parameter that stands in a list without a type or a node of its own. -/
def barePattern? (parameter : Place) : Option Place :=
  match parameter.kind with
  | .identifier | .objectPattern | .arrayPattern | .restPattern => some parameter
  | .assignmentPattern => parameter.child? .left
  | _ => none

def bindingsAt (d : Declarations) (source : String) (p : Place) : List Binding :=
  match p.kind with
  | .variableDeclarator =>
    -- `var` rises to the function around it, `let` and `const` stay in their block.
    let hoisted := p.parent?.any fun q => q.kind == .variableDeclaration
    match p.child? .name, p.declaringScope? hoisted with
    | some name, some scope => bindPattern source scope name (bindingShape d source p)
    | _, _ => []
  | .forInStatement =>
    match p.child? .kind, p.child? .left with
    | some keyword, some left =>
      if keyword.text source = "var" then
        match p.declaringScope? true with
        | some scope => bindPattern source scope left .unknown
        | none => []
      else bindPattern source p left .unknown
    | _, _ => []
  | .importSpecifier =>
    match (p.child? .alias).orElse fun _ => p.child? .name with
    | some name => bindImport source p name
    | none => []
  | .importClause | .namespaceImport | .importRequireClause =>
    (p.namedChildren.filter fun c => c.kind == .identifier).flatMap (bindImport source p)
  | .functionDeclaration | .generatorFunctionDeclaration =>
    match p.child? .name, p.declaringScope? false with
    | some name, some scope => [⟨scope.address, name.text source, .ofFunction⟩]
    | _, _ => []
  | .requiredParameter | .optionalParameter =>
    parameterField source p ++ parameterNames source p
  | .formalParameters =>
    match p.declaringScope? true with
    | some scope =>
      (p.namedChildren.filterMap barePattern?).flatMap fun pattern =>
        bindPattern source scope pattern .unknown
    | none => []
  | .arrowFunction | .catchClause =>
    match p.child? .parameter with
    | some parameter => bindPattern source p parameter .unknown
    | none => []
  | .publicFieldDefinition | .fieldDefinition =>
    match (p.child? .name).orElse fun _ => p.child? .property, p.enclosingClassBody? with
    | some name, some body =>
      [⟨body.address, fieldKey (name.text source), bindingShape d source p⟩]
    | _, _ => []
  | _ => []

def classDeclarations (source : String) (places : List Place) : Declarations :=
  let classes := places.filterMap (classAt? source)
  { classes, bindings := classes.map fun c => ⟨c.scope, c.name, .ofClass⟩ }

def collectAt (source : String) (d : Declarations) (p : Place) : Declarations :=
  d.addBindings (bindingsAt d source p)

/-- Classes come first, so that an initialiser `new C()` knows every class of the file. All other
declarations follow in document order, and an initialiser is judged by what has been collected
before it. -/
def declarations (file : SourceFile) : Declarations :=
  file.places.foldl (collectAt file.text) (classDeclarations file.text file.places)

end ObserverLint.Oracle
