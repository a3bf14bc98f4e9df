/-!
# GraphQL documents

The part of a GraphQL document that matters for its types: definitions with their names, fields, type references
and directives.  A document may also hold operations, fragments and extensions; of the executable ones only the
name is kept.  Names are arbitrary texts here: what a name may look like is a matter of the written form.

Left out is what no declaration depends on: descriptions, the directives of enum values, and the locations of
directive definitions.  The source text is left out too.  Where a definition stands in it is looked up when the
document is made, and the document keeps the answer (`Definition.lines`).
-/

namespace SchemaDart

/-- A reference to a type.  `nonNull` is the marker `!` after the name or the closing bracket. -/
inductive TypeRef where
  | named (name : String) (nonNull : Bool)
  | list (element : TypeRef) (nonNull : Bool)
deriving DecidableEq

/-- A literal as written.  Numbers keep their text. -/
inductive Literal where
  | null
  | var (name : String)
  | enum (name : String)
  | int (text : String)
  | float (text : String)
  | string (value : String)
  | boolean (value : Bool)
  | list (items : List Literal)
  | object (entries : List (String × Literal))

/-- A directive with its arguments in written order. -/
structure Directive where
  name : String
  arguments : List (String × Literal)

/-- An argument of a field or directive, or a field of an input object. -/
structure InputValue where
  name : String
  type : TypeRef
  default? : Option Literal
  directives : List Directive

/-- A field of an object or interface. -/
structure Field where
  name : String
  type : TypeRef
  arguments : List InputValue
  directives : List Directive

/-- The three kinds of operation. -/
inductive OperationKind where
  | query
  | mutation
  | subscription
deriving DecidableEq

/-- The keyword of an operation, which is also its name in a schema. -/
def OperationKind.keyword : OperationKind → String
  | .query => "query"
  | .mutation => "mutation"
  | .subscription => "subscription"

/-- What objects and interfaces have in common: the names of the interfaces implemented, and fields. -/
structure CompositeType where
  name : String
  interfaces : List String
  fields : List Field

/-- What a type-system definition introduces and an extension adds to. -/
inductive TypeSystem where
  | schema (operations : List (OperationKind × String))
  | scalar (name : String)
  | object (type : CompositeType)
  | interface (type : CompositeType)
  | union (name : String) (members : List String)
  | enum (name : String) (values : List String)
  | input (name : String) (fields : List InputValue)

/-- What a definition says, apart from its directives. -/
inductive Body where
  | define (system : TypeSystem)
  | extend (system : TypeSystem)
  | directive (name : String) (arguments : List InputValue)
  | operation (kind : OperationKind) (name : Option String)
  | fragment (name : String) (condition : String)

/-- First and last line of a stretch of text, counted from one. -/
structure LineRange where
  first : Nat
  last : Nat
deriving DecidableEq

/-- One definition of a document. -/
structure Definition where
  body : Body
  directives : List Directive
  /-- What looking the definition up in the source text gives: the lines on which it begins and ends.  It gives none
  if the definition was not read from text. -/
  lines : Option LineRange

/-- A document is the sequence of its definitions. -/
abbrev Document := List Definition

namespace TypeSystem

/-- The name of what is defined; a schema has none. -/
def name? : TypeSystem → Option String
  | .schema _ => none
  | .scalar name => some name
  | .object type => some type.name
  | .interface type => some type.name
  | .union name _ => some name
  | .enum name _ => some name
  | .input name _ => some name

/-- The word for what is defined. -/
def noun : TypeSystem → String
  | .schema _ => "Schema"
  | .scalar _ => "ScalarType"
  | .object _ => "ObjectType"
  | .interface _ => "InterfaceType"
  | .union .. => "UnionType"
  | .enum .. => "EnumType"
  | .input .. => "InputObjectType"

end TypeSystem

/-- The kind of a definition, in the words of the GraphQL grammar. -/
def Body.kind : Body → String
  | .define system => system.noun ++ "Definition"
  | .extend system => system.noun ++ "Extension"
  | .directive .. => "DirectiveDefinition"
  | .operation .. => "OperationDefinition"
  | .fragment .. => "FragmentDefinition"

/-- The name of a definition; schemas, their extensions and anonymous operations have none. -/
def Body.name? : Body → Option String
  | .define system => system.name?
  | .extend system => system.name?
  | .directive name _ => some name
  | .operation _ name => name
  | .fragment name _ => some name

/-- The names of the fields, in order. -/
def CompositeType.fieldNames (t : CompositeType) : List String := t.fields.map Field.name

end SchemaDart
