namespace ObserverLint

/-- A kind that no rule speaks of keeps its own name, so reading a name and writing it again gives
the same text. -/
inductive Kind where
  | program
  | functionDeclaration
  | generatorFunctionDeclaration
  | functionExpression
  | function
  | generatorFunction
  | arrowFunction
  | methodDefinition
  | statementBlock
  | forStatement
  | forInStatement
  | catchClause
  | classBody
  | switchBody
  | classDeclaration
  | abstractClassDeclaration
  | classExpression
  | classHeritage
  | variableDeclaration
  | variableDeclarator
  | importSpecifier
  | importClause
  | namespaceImport
  | importRequireClause
  | requiredParameter
  | optionalParameter
  | formalParameters
  | accessibilityModifier
  | readonlyModifier
  | publicFieldDefinition
  | fieldDefinition
  | objectPattern
  | arrayPattern
  | restPattern
  | assignmentPattern
  | shorthandPattern
  | annotatedType
  | parenthesizedType
  | predefinedType
  | literalType
  | templateLiteralType
  | arrayType
  | tupleType
  | readonlyType
  | objectType
  | callSignature
  | functionType
  | typeIdentifier
  | nestedTypeIdentifier
  | genericType
  | unionType
  | intersectionType
  | typeArguments
  | parenthesized
  | asExpression
  | satisfiesExpression
  | nonNullExpression
  | typeAssertion
  | objectLiteral
  | arrayLiteral
  | stringLiteral
  | templateString
  | numberLiteral
  | trueLiteral
  | falseLiteral
  | nullLiteral
  | undefinedLiteral
  | regexLiteral
  | unaryExpression
  | updateExpression
  | newExpression
  | memberExpression
  | thisExpression
  | identifier
  | callExpression
  | arguments
  | comment
  /-- A kind of node that no rule looks at. -/
  | other (text : String)
deriving DecidableEq, Repr, Inhabited

namespace Kind

def spelling : Kind → String
  | .program => "program"
  | .functionDeclaration => "function_declaration"
  | .generatorFunctionDeclaration => "generator_function_declaration"
  | .functionExpression => "function_expression"
  | .function => "function"
  | .generatorFunction => "generator_function"
  | .arrowFunction => "arrow_function"
  | .methodDefinition => "method_definition"
  | .statementBlock => "statement_block"
  | .forStatement => "for_statement"
  | .forInStatement => "for_in_statement"
  | .catchClause => "catch_clause"
  | .classBody => "class_body"
  | .switchBody => "switch_body"
  | .classDeclaration => "class_declaration"
  | .abstractClassDeclaration => "abstract_class_declaration"
  | .classExpression => "class"
  | .classHeritage => "class_heritage"
  | .variableDeclaration => "variable_declaration"
  | .variableDeclarator => "variable_declarator"
  | .importSpecifier => "import_specifier"
  | .importClause => "import_clause"
  | .namespaceImport => "namespace_import"
  | .importRequireClause => "import_require_clause"
  | .requiredParameter => "required_parameter"
  | .optionalParameter => "optional_parameter"
  | .formalParameters => "formal_parameters"
  | .accessibilityModifier => "accessibility_modifier"
  | .readonlyModifier => "readonly"
  | .publicFieldDefinition => "public_field_definition"
  | .fieldDefinition => "field_definition"
  | .objectPattern => "object_pattern"
  | .arrayPattern => "array_pattern"
  | .restPattern => "rest_pattern"
  | .assignmentPattern => "assignment_pattern"
  | .shorthandPattern => "shorthand_property_identifier_pattern"
  | .annotatedType => "type_annotation"
  | .parenthesizedType => "parenthesized_type"
  | .predefinedType => "predefined_type"
  | .literalType => "literal_type"
  | .templateLiteralType => "template_literal_type"
  | .arrayType => "array_type"
  | .tupleType => "tuple_type"
  | .readonlyType => "readonly_type"
  | .objectType => "object_type"
  | .callSignature => "call_signature"
  | .functionType => "function_type"
  | .typeIdentifier => "type_identifier"
  | .nestedTypeIdentifier => "nested_type_identifier"
  | .genericType => "generic_type"
  | .unionType => "union_type"
  | .intersectionType => "intersection_type"
  | .typeArguments => "type_arguments"
  | .parenthesized => "parenthesized_expression"
  | .asExpression => "as_expression"
  | .satisfiesExpression => "satisfies_expression"
  | .nonNullExpression => "non_null_expression"
  | .typeAssertion => "type_assertion"
  | .objectLiteral => "object"
  | .arrayLiteral => "array"
  | .stringLiteral => "string"
  | .templateString => "template_string"
  | .numberLiteral => "number"
  | .trueLiteral => "true"
  | .falseLiteral => "false"
  | .nullLiteral => "null"
  | .undefinedLiteral => "undefined"
  | .regexLiteral => "regex"
  | .unaryExpression => "unary_expression"
  | .updateExpression => "update_expression"
  | .newExpression => "new_expression"
  | .memberExpression => "member_expression"
  | .thisExpression => "this"
  | .identifier => "identifier"
  | .callExpression => "call_expression"
  | .arguments => "arguments"
  | .comment => "comment"
  | .other text => text

def known : List Kind :=
  [.program, .functionDeclaration, .generatorFunctionDeclaration, .functionExpression, .function,
   .generatorFunction, .arrowFunction, .methodDefinition, .statementBlock, .forStatement,
   .forInStatement, .catchClause, .classBody, .switchBody, .classDeclaration,
   .abstractClassDeclaration, .classExpression, .classHeritage, .variableDeclaration,
   .variableDeclarator, .importSpecifier, .importClause, .namespaceImport, .importRequireClause,
   .requiredParameter, .optionalParameter, .formalParameters, .accessibilityModifier,
   .readonlyModifier, .publicFieldDefinition, .fieldDefinition, .objectPattern, .arrayPattern,
   .restPattern, .assignmentPattern, .shorthandPattern, .annotatedType, .parenthesizedType,
   .predefinedType, .literalType, .templateLiteralType, .arrayType, .tupleType, .readonlyType,
   .objectType, .callSignature, .functionType, .typeIdentifier, .nestedTypeIdentifier,
   .genericType, .unionType, .intersectionType, .typeArguments, .parenthesized, .asExpression,
   .satisfiesExpression, .nonNullExpression, .typeAssertion, .objectLiteral, .arrayLiteral,
   .stringLiteral, .templateString, .numberLiteral, .trueLiteral, .falseLiteral, .nullLiteral,
   .undefinedLiteral, .regexLiteral, .unaryExpression, .updateExpression, .newExpression,
   .memberExpression, .thisExpression, .identifier, .callExpression, .arguments, .comment]

def ofSpelling (text : String) : Kind :=
  (known.find? fun kind => kind.spelling == text).getD (.other text)

@[simp] theorem spelling_ofSpelling (text : String) : (ofSpelling text).spelling = text := by
  unfold ofSpelling
  cases h : known.find? fun kind => kind.spelling == text with
  | none => rfl
  | some kind => simpa using List.find?_some h

end Kind

inductive Field where
  | function
  | arguments
  | object
  | property
  | name
  | alias
  | value
  | type
  | kind
  | left
  | pattern
  | parameter
  | constructor
  /-- A field that no rule looks at. -/
  | other (text : String)
deriving DecidableEq, Repr, Inhabited

namespace Field

def spelling : Field → String
  | .function => "function"
  | .arguments => "arguments"
  | .object => "object"
  | .property => "property"
  | .name => "name"
  | .alias => "alias"
  | .value => "value"
  | .type => "type"
  | .kind => "kind"
  | .left => "left"
  | .pattern => "pattern"
  | .parameter => "parameter"
  | .constructor => "constructor"
  | .other text => text

def known : List Field :=
  [.function, .arguments, .object, .property, .name, .alias, .value, .type, .kind, .left,
   .pattern, .parameter, .constructor]

def ofSpelling (text : String) : Field :=
  (known.find? fun field => field.spelling == text).getD (.other text)

@[simp] theorem spelling_ofSpelling (text : String) : (ofSpelling text).spelling = text := by
  unfold ofSpelling
  cases h : known.find? fun field => field.spelling == text with
  | none => rfl
  | some field => simpa using List.find?_some h

end Field

end ObserverLint
