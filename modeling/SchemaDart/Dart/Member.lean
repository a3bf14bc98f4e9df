import SchemaDart.Dart.Deprecation
import SchemaDart.Dart.Type

/-!
# Members of classes

A member of a class is a typed name, with a parameter list if it takes parameters.  Members and parameters may be
marked as deprecated: a member on the line above it, a parameter right before its type.
-/

namespace SchemaDart

/-- A parameter of a member. -/
structure Parameter where
  name : String
  type : DartType
  deprecation : Option Deprecation
deriving DecidableEq

/-- The parameter as Dart text. -/
def Parameter.text (p : Parameter) : String :=
  (match p.deprecation with
    | some d => d.text ++ " "
    | none => "")
    ++ p.type.text ++ " " ++ p.name

/-- A member of a class. -/
structure Member where
  name : String
  type : DartType
  parameters : List Parameter
  deprecation : Option Deprecation
deriving DecidableEq

namespace Member

/-- The member with one more parameter. -/
def addParameter (m : Member) (p : Parameter) : Member :=
  { m with parameters := m.parameters ++ [p] }

/-- The parameter list; a member without parameters has none. -/
def parameterList (m : Member) : String :=
  if m.parameters.isEmpty then ""
  else "(" ++ ", ".intercalate (m.parameters.map Parameter.text) ++ ")"

/-- The member as indented Dart text, without a newline at the end. -/
def text (m : Member) : String :=
  (match m.deprecation with
    | some d => "  " ++ d.text ++ "\n"
    | none => "")
    ++ "  " ++ m.type.text ++ " " ++ m.name ++ m.parameterList ++ ";"

end Member
end SchemaDart
