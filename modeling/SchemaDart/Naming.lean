import SchemaDart.Catalog
import SchemaDart.Dart.Type

/-!
# Naming types in Dart

The name of a type in Dart: a scalar defined in the document becomes one fixed marker, a built-in scalar its Dart
counterpart, and any other name stays.  A definition in the document wins over a built-in of the same name.
-/

namespace SchemaDart

/-- The scalars that every GraphQL document knows. -/
inductive BuiltinScalar where
  | int
  | float
  | string
  | boolean
  | id
deriving DecidableEq

namespace BuiltinScalar

def all : List BuiltinScalar := [.int, .float, .string, .boolean, .id]

/-- The name in GraphQL. -/
def graphqlName : BuiltinScalar → String
  | .int => "Int"
  | .float => "Float"
  | .string => "String"
  | .boolean => "Boolean"
  | .id => "ID"

/-- The name in Dart. -/
def dartName : BuiltinScalar → String
  | .int => "int"
  | .float => "double"
  | .string => "String"
  | .boolean => "bool"
  | .id => "String"

/-- The built-in scalar of a GraphQL name. -/
def ofName? (name : String) : Option BuiltinScalar := all.find? (·.graphqlName = name)

end BuiltinScalar

/-- How type names are chosen: by the catalog of a document and the marker for its scalars. -/
structure Naming where
  catalog : Catalog
  marker : String

namespace Naming

/-- The Dart name of the type called `name`. -/
def name (n : Naming) (name : String) : String :=
  if n.catalog.isScalar name then n.marker
  else
    match BuiltinScalar.ofName? name with
    | some s => s.dartName
    | none => name

/-- The Dart type for a reference.  Dart has no counterpart to the non-null marker. -/
def type (n : Naming) : TypeRef → DartType
  | .named name _ => .named (n.name name)
  | .list element _ => .list (n.type element)

end Naming
end SchemaDart
