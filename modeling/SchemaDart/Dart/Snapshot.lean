import SchemaDart.Dart.Declaration
import SchemaDart.Json

/-!
# Declarations as JSON

Every part of a declaration has a JSON form that keeps all of it.  The forms of a sum are objects with one member
named for the form; the bare deprecation mark is a string.
-/

namespace SchemaDart

/-- Strings in order. -/
def Json.strings (texts : List String) : Json := .array (texts.map .string)

def DartType.toJson : DartType → Json
  | .named name => .object [("NamedType", .object [("name", .string name)])]
  | .list element => .object [("List", .object [("ty", element.toJson)])]

def Deprecation.toJson : Deprecation → Json
  | .bare => .string "Bare"
  | .reasons texts => .object [("Reasons", .strings texts)]

def Parameter.toJson (p : Parameter) : Json :=
  .object [
    ("name", .string p.name),
    ("ty", p.type.toJson),
    ("deprecated", .ofOption Deprecation.toJson p.deprecation)]

def Member.toJson (m : Member) : Json :=
  .object [
    ("name", .string m.name),
    ("ty", m.type.toJson),
    ("args", .array (m.parameters.map Parameter.toJson)),
    ("deprecated", .ofOption Deprecation.toJson m.deprecation)]

def LineRange.toJson (r : LineRange) : Json := .array [.number r.first, .number r.last]

def Header.toJson (h : Header) : Json :=
  .object [("kind", .string h.kind), ("lines", .ofOption LineRange.toJson h.lines)]

def ClassDecl.toJson (c : ClassDecl) : Json :=
  .object [
    ("header", .ofOption Header.toJson c.header),
    ("name", .string c.name),
    ("interfaces", .strings c.interfaces),
    ("members", .array (c.members.map Member.toJson))]

def EnumDecl.toJson (e : EnumDecl) : Json :=
  .object [
    ("header", .ofOption Header.toJson e.header),
    ("name", .string e.name),
    ("values", .strings e.values)]

def RootOperation.toJson (r : RootOperation) : Json :=
  .object [("operation", .string r.operation), ("ty", .string r.type)]

def SchemaDecl.toJson (s : SchemaDecl) : Json :=
  .object [
    ("header", .ofOption Header.toJson s.header),
    ("root_operations", .array (s.rootOperations.map RootOperation.toJson))]

def Declaration.toJson : Declaration → Json
  | .ofClass c => .object [("Class", c.toJson)]
  | .ofEnum e => .object [("Enum", e.toJson)]
  | .ofSchema s => .object [("Schema", s.toJson)]

def Library.toJson (l : Library) : Json := .array (l.declarations.map Declaration.toJson)

/-- The snapshot of a library: its JSON form in pretty layout. -/
def Library.snapshot (l : Library) : String := l.toJson.pretty

end SchemaDart
