import ObserverLint.Tree.Node

namespace ObserverLint

namespace Kind

/-- Scopes that declarations with `var` rise to. -/
def isFunctionScope : Kind → Bool
  | program | functionDeclaration | generatorFunctionDeclaration | functionExpression | function
  | generatorFunction | arrowFunction | methodDefinition => true
  | _ => false

/-- Scopes that other declarations stay in. -/
def isBlockScope : Kind → Bool
  | statementBlock | forStatement | forInStatement | catchClause | classBody | switchBody => true
  | kind => kind.isFunctionScope

end Kind

namespace Place

/-- The scope that a declaration at `p` belongs to: the nearest function if it rises there, the
nearest block otherwise. -/
def declaringScope? (p : Place) (hoisted : Bool) : Option Place :=
  p.ancestors.find? fun a => if hoisted then a.kind.isFunctionScope else a.kind.isBlockScope

def enclosingClassBody? (p : Place) : Option Place :=
  p.ancestors.find? fun a => a.kind == .classBody

end Place

end ObserverLint
