/-!
# Dart types
-/

namespace SchemaDart

/-- A Dart type: a name, or a list of some type. -/
inductive DartType where
  | named (name : String)
  | list (element : DartType)
deriving DecidableEq

namespace DartType

/-- The name inside all lists. -/
def elementName : DartType → String
  | .named name => name
  | .list element => element.elementName

/-- The type as Dart text. -/
def text : DartType → String
  | .named name => name
  | .list element => "List<" ++ element.text ++ ">"

end DartType
end SchemaDart
