import SchemaDart.Source.Grammar.Selection

/-!
# The grammar of definitions and documents

Descriptions are read and dropped, and so is all of an operation or a fragment but its name.
-/

namespace SchemaDart
namespace Source

open Rule

/-! ### Parts of definitions -/

/-- A default value, if there is one. -/
def default? : Rule (Option Literal) := do
  if ← mark? .equals then
    match literal false nestingLimit (← tree) with
    | none => fail
    | some v => return some v
  else return none

/-- An argument definition or a field of an input object. -/
def inputValue : Rule InputValue := do
  let _ ← description?
  let name ← name
  mark .colon
  let type ← type
  let default? ← default?
  let directives ← constDirectives
  return { name, type, default?, directives }

/-- A field of an object or interface. -/
def field : Rule Field := do
  let _ ← description?
  let name ← name
  let arguments ← block? .paren inputValue
  mark .colon
  let type ← type
  let directives ← constDirectives
  return { name, type, arguments, directives }

/-- A value of an enum. -/
def enumValue : Rule String := do
  let _ ← description?
  let name ← name
  if name ∈ ["true", "false", "null"] then fail
  let _ ← constDirectives
  return name

/-- A variable of an operation. -/
def variableDefinition : Rule Unit := do
  mark .dollar
  let _ ← name
  mark .colon
  let _ ← type
  let _ ← default?
  let _ ← constDirectives

/-- The operation that a keyword stands for. -/
def operationKind? (word : String) : Option OperationKind :=
  [OperationKind.query, .mutation, .subscription].find? (·.keyword = word)

/-- A root operation of a schema; `none` if no type stands behind the colon. -/
def rootOperation : Rule (Option (OperationKind × String)) := do
  let word ← name
  mark .colon
  let type ← name?
  match operationKind? word with
  | none => fail
  | some kind => return type.map ((kind, ·))

/-- The names behind `implements`, if it is next. -/
def interfaces : Rule (List String) := do
  if ← keyword? "implements" then names .ampersand else return []

/-- Where a directive may be used. -/
def directiveLocations : List String :=
  ["QUERY", "MUTATION", "SUBSCRIPTION", "FIELD", "FRAGMENT_DEFINITION", "FRAGMENT_SPREAD", "INLINE_FRAGMENT",
    "VARIABLE_DEFINITION", "SCHEMA", "SCALAR", "OBJECT", "FIELD_DEFINITION", "ARGUMENT_DEFINITION", "INTERFACE",
    "UNION", "ENUM", "ENUM_VALUE", "INPUT_OBJECT", "INPUT_FIELD_DEFINITION"]

/-! ### Definitions -/

/-- What follows the keyword in a type-system definition or extension, with its directives. -/
def typeSystem (word : String) : Rule (TypeSystem × List Directive) := do
  match word with
  | "schema" =>
    let directives ← constDirectives
    let operations ← block? .brace rootOperation
    return (.schema (operations.filterMap id), directives)
  | "scalar" =>
    let name ← name
    let directives ← constDirectives
    return (.scalar name, directives)
  | "type" =>
    let (type, directives) ← composite
    return (.object type, directives)
  | "interface" =>
    let (type, directives) ← composite
    return (.interface type, directives)
  | "union" =>
    let name ← name
    let directives ← constDirectives
    let members ← if ← mark? .equals then names .pipe else pure []
    return (.union name members, directives)
  | "enum" =>
    let name ← name
    let directives ← constDirectives
    let values ← block? .brace enumValue
    return (.enum name values, directives)
  | "input" =>
    let name ← name
    let directives ← constDirectives
    let fields ← block? .brace inputValue
    return (.input name fields, directives)
  | _ => fail
where
  composite : Rule (CompositeType × List Directive) := do
    let name ← name
    let interfaces ← interfaces
    let directives ← constDirectives
    let fields ← block? .brace field
    return ({ name, interfaces, fields }, directives)

/-- A directive definition, behind its keyword. -/
def directiveDefinition : Rule Body := do
  mark .atSign
  let name ← name
  let arguments ← block? .paren inputValue
  let _ ← keyword? "repeatable"
  keyword "on"
  let locations ← names .pipe
  unless locations.all (· ∈ directiveLocations) do fail
  return .directive name arguments

/-- A definition that may have a description, behind its keyword. -/
def describedDefinition (word : String) : Rule (Body × List Directive) := do
  if word = "directive" then return (← directiveDefinition, [])
  let (system, directives) ← typeSystem word
  return (.define system, directives)

/-- An extension of the schema, behind its keyword.  It has to add something, but braces behind directives may be
empty. -/
def schemaExtension : Rule (Body × List Directive) := do
  let directives ← constDirectives
  let operations ← items rootOperation ((← group? .brace).getD [])
  if directives.isEmpty && operations.isEmpty then fail
  return (.extend (.schema (operations.filterMap id)), directives)

/-- An extension of a type, behind its keyword.  It has to add something, so there is more to it than the name. -/
def typeExtension (word : String) : Rule (Body × List Directive) := do
  let before ← get
  let (system, directives) ← typeSystem word
  let after ← get
  unless after.length + 1 < before.length do fail
  return (.extend system, directives)

/-- An extension, behind `extend`. -/
def extension : Rule (Body × List Directive) := do
  joined
  let word ← name
  if word = "schema" then schemaExtension else typeExtension word

/-- An operation, behind its keyword. -/
def operation (kind : OperationKind) : Rule (Body × List Directive) := do
  let name ← name?
  let _ ← block? .paren variableDefinition
  let directives ← directives true
  selectionSet
  return (.operation kind name, directives)

/-- The fragment of the given name, behind that name. -/
def fragmentNamed (name : String) : Rule (Body × List Directive) := do
  keyword "on"
  let condition ← Rule.name
  let directives ← directives true
  selectionSet
  return (.fragment name condition, directives)

/-- A fragment, behind its keyword. -/
def fragment : Rule (Body × List Directive) := do
  let name ← name
  if name = "on" then fail
  fragmentNamed name

/-- What a description may stand before.  A fragment that has one gets no other name than its keyword. -/
def described : Rule (Body × List Directive) := do
  let word ← name
  if word = "fragment" then fragmentNamed word else describedDefinition word

/-- A definition. -/
def definition : Rule (Body × List Directive) := do
  if ← description? then
    joined
    described
  else
    match ← peek? with
    | some (.group .brace ..) =>
      selectionSet
      return (.operation .query none, [])
    | _ =>
      let word ← name
      if word = "extend" then extension
      else if word = "fragment" then fragment
      else
        match operationKind? word with
        | some kind => operation kind
        | none => describedDefinition word

/-- The lines from the first to the last of the trees that were read before `rest`. -/
def linesBefore (rest : List Tree) (ts : List Tree) : Option LineRange := do
  let read := ts.take (ts.length - rest.length)
  return ⟨(← read.head?).place.lines.first, (← read.getLast?).place.lines.last⟩

/-- A definition with its lines. -/
def locatedDefinition : Rule Definition := fun ts => do
  let ((body, directives), rest) ← definition ts
  return ({ body, directives, lines := linesBefore rest ts }, rest)

end Source

/-- Reads a GraphQL document.  A text without any definition is none. -/
def Document.parse? (text : String) : Option Document := do
  match Source.Rule.items Source.locatedDefinition (← Source.trees? text) with
  | some (d :: ds) => return d :: ds
  | _ => none

end SchemaDart
