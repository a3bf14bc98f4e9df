import SchemaDart.Dart.Member
import SchemaDart.Document

/-!
# Dart declarations

Three forms of declaration, each under an optional header: abstract classes, enums and the class of root
operations.  A library is a sequence of declarations; their texts are set apart by blank lines.
-/

namespace SchemaDart

/-- The comment above a declaration: the kind of definition it comes from, and where that stands. -/
structure Header where
  kind : String
  lines : Option LineRange
deriving DecidableEq

/-- The header as Dart comments, each on a line. -/
def Header.text (h : Header) : String :=
  "// Kind: " ++ h.kind ++ "\n"
    ++ match h.lines with
      | some r => "// Schema Lines: " ++ r.first.repr ++ " - " ++ r.last.repr ++ "\n"
      | none => ""

/-- The text of a header that may be absent. -/
def headerText : Option Header → String
  | some h => h.text
  | none => ""

/-- An abstract class. -/
structure ClassDecl where
  header : Option Header
  name : String
  interfaces : List String
  members : List Member
deriving DecidableEq

namespace ClassDecl

/-- A class without header, interfaces and members. -/
def ofName (name : String) : ClassDecl := ⟨none, name, [], []⟩

def addInterface (c : ClassDecl) (name : String) : ClassDecl :=
  { c with interfaces := c.interfaces ++ [name] }

def addMember (c : ClassDecl) (m : Member) : ClassDecl :=
  { c with members := c.members ++ [m] }

/-- The clause that names the interfaces, if there are any. -/
def implementsClause (c : ClassDecl) : String :=
  if c.interfaces.isEmpty then "" else " implements " ++ ", ".intercalate c.interfaces

def text (c : ClassDecl) : String :=
  headerText c.header ++ "abstract class " ++ c.name ++ c.implementsClause ++ " \x7b"
    ++ String.join (c.members.map fun m => "\n" ++ m.text) ++ "\n\x7d\n"

end ClassDecl

/-- An enum. -/
structure EnumDecl where
  header : Option Header
  name : String
  values : List String
deriving DecidableEq

namespace EnumDecl

/-- An enum without header and values. -/
def ofName (name : String) : EnumDecl := ⟨none, name, []⟩

def addValue (e : EnumDecl) (value : String) : EnumDecl := { e with values := e.values ++ [value] }

def text (e : EnumDecl) : String :=
  headerText e.header ++ "enum " ++ e.name ++ " \x7b"
    ++ String.join (e.values.map fun v => "\n  " ++ v ++ ",") ++ "\n\x7d\n"

end EnumDecl

/-- A root operation and the name of its type. -/
structure RootOperation where
  operation : String
  type : String
deriving DecidableEq

/-- The class of root operations. -/
structure SchemaDecl where
  header : Option Header
  rootOperations : List RootOperation
deriving DecidableEq

namespace SchemaDecl

/-- No header and no root operation. -/
def empty : SchemaDecl := ⟨none, []⟩

def addRootOperation (s : SchemaDecl) (r : RootOperation) : SchemaDecl :=
  { s with rootOperations := s.rootOperations ++ [r] }

def text (s : SchemaDecl) : String :=
  headerText s.header ++ "class Schema \x7b"
    ++ String.join (s.rootOperations.map fun r => "\n  " ++ r.type ++ " " ++ r.operation ++ ";") ++ "\n\x7d\n"

end SchemaDecl

/-- A declaration. -/
inductive Declaration where
  | ofClass (decl : ClassDecl)
  | ofEnum (decl : EnumDecl)
  | ofSchema (decl : SchemaDecl)
deriving DecidableEq

/-- The declaration as Dart text, with a newline at the end. -/
def Declaration.text : Declaration → String
  | .ofClass c => c.text
  | .ofEnum e => e.text
  | .ofSchema s => s.text

/-- A sequence of declarations. -/
structure Library where
  declarations : List Declaration
deriving DecidableEq

namespace Library

/-- No declarations. -/
def empty : Library := ⟨[]⟩

def push (l : Library) (d : Declaration) : Library := ⟨l.declarations ++ [d]⟩

def size (l : Library) : Nat := l.declarations.length

def isEmpty (l : Library) : Bool := l.declarations.isEmpty

/-- The declarations as Dart text, a blank line between two. -/
def text (l : Library) : String := "\n".intercalate (l.declarations.map Declaration.text)

end Library
end SchemaDart
