import SchemaDart.Document
import SchemaDart.Table

/-!
# Catalogs

The catalog of a document lists what a type name may refer to from anywhere in the document: the scalars and the
interfaces it defines.  Names come in the order of their first definition; of several interfaces of one name the
last counts.  Extensions define nothing.
-/

namespace SchemaDart

/-- The scalars and interfaces that a document defines. -/
structure Catalog where
  scalars : List String
  interfaces : Table String CompositeType

namespace Catalog

/-- Nothing defined. -/
def empty : Catalog := ⟨[], []⟩

/-- Enters one definition. -/
def add (c : Catalog) (d : Definition) : Catalog :=
  match d.body with
  | .define (.scalar name) => if name ∈ c.scalars then c else { c with scalars := c.scalars ++ [name] }
  | .define (.interface type) => { c with interfaces := Table.insert type.name type c.interfaces }
  | _ => c

/-- The catalog of a document. -/
def ofDocument (doc : Document) : Catalog := doc.foldl add empty

/-- Whether the name is that of a scalar defined in the document. -/
def isScalar (c : Catalog) (name : String) : Bool := name ∈ c.scalars

/-- The interface of this name. -/
def interface? (c : Catalog) (name : String) : Option CompositeType := Table.get? name c.interfaces

/-- The names of the interfaces. -/
def interfaceNames (c : Catalog) : List String := Table.keys c.interfaces

end Catalog
end SchemaDart
