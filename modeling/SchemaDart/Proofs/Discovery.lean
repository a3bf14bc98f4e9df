import Mathlib.Data.Finset.Card
import SchemaDart.Generate
import SchemaDart.Proofs.Interfaces
import SchemaDart.Proofs.Tables

/-!
# The names in a catalog

A catalog lists every scalar and every interface of a document once, however often it is defined, and in the order
of first definitions (`scalars_ofDocument`, `interfaceNames_ofDocument`).  So the sizes that a run reports of its
catalog are the numbers of distinct names (`discovered_ofDocument`).
-/

namespace SchemaDart

/-- The name of the scalar that a definition defines. -/
def Definition.scalarName? (d : Definition) : Option String :=
  match d.body with
  | .define (.scalar name) => some name
  | _ => none

namespace Document

/-- The names of the scalars that the document defines, one for each definition. -/
def scalarNames (doc : Document) : List String := doc.filterMap Definition.scalarName?

/-- The names of the interfaces that the document defines, one for each definition. -/
def interfaceNames (doc : Document) : List String := (doc.filterMap Definition.interface?).map CompositeType.name

end Document

theorem length_eraseDups {α : Type} [DecidableEq α] (as : List α) : as.eraseDups.length = as.toFinset.card := by
  rw [← List.toFinset_card_of_nodup (nodup_eraseDups as)]
  congr 1
  ext a
  simp

/-! ## Catalogs -/

namespace Catalog

theorem ofDocument_concat (doc : Document) (d : Definition) :
    ofDocument (doc ++ [d]) = (ofDocument doc).add d := by
  simp [ofDocument]

theorem scalars_add (c : Catalog) (d : Definition) :
    (c.add d).scalars =
      d.scalarName?.elim c.scalars fun name => if name ∈ c.scalars then c.scalars else c.scalars ++ [name] := by
  obtain ⟨body, directives, lines⟩ := d
  cases body with
  | define system =>
    cases system with
    | scalar name =>
      show (if name ∈ c.scalars then c else { c with scalars := c.scalars ++ [name] } : Catalog).scalars = _
      by_cases hname : name ∈ c.scalars <;> simp [Definition.scalarName?, hname]
    | _ => rfl
  | _ => rfl

theorem interfaceNames_add (c : Catalog) (d : Definition) :
    (c.add d).interfaceNames = (d.interface?.map CompositeType.name).elim c.interfaceNames fun name =>
      if name ∈ c.interfaceNames then c.interfaceNames else c.interfaceNames ++ [name] := by
  obtain ⟨body, directives, lines⟩ := d
  cases body with
  | define system =>
    cases system with
    | scalar name =>
      show Catalog.interfaceNames (if name ∈ c.scalars then c else { c with scalars := c.scalars ++ [name] }) = _
      split <;> rfl
    | interface t => exact Table.keys_insert t.name t c.interfaces
    | _ => rfl
  | _ => rfl

/-- The catalog lists the scalars in the order of their first definitions. -/
theorem scalars_ofDocument (doc : Document) : (ofDocument doc).scalars = doc.scalarNames.eraseDups := by
  induction doc using List.reverseRecOn with
  | nil => rfl
  | append_singleton doc d ih =>
    have hnames : Document.scalarNames (doc ++ [d]) = Document.scalarNames doc ++ d.scalarName?.toList := by
      unfold Document.scalarNames
      rw [List.filterMap_append]
      cases h : d.scalarName? <;> simp [h]
    rw [ofDocument_concat, scalars_add, ih, hnames, eraseDups_append_toList]

/-- The catalog lists the interfaces in the order of their first definitions. -/
theorem interfaceNames_ofDocument (doc : Document) :
    (ofDocument doc).interfaceNames = doc.interfaceNames.eraseDups := by
  induction doc using List.reverseRecOn with
  | nil => rfl
  | append_singleton doc d ih =>
    have hnames : Document.interfaceNames (doc ++ [d]) =
        Document.interfaceNames doc ++ (d.interface?.map CompositeType.name).toList := by
      unfold Document.interfaceNames
      rw [List.filterMap_append, List.map_append]
      cases h : d.interface? <;> simp [h]
    rw [ofDocument_concat, interfaceNames_add, ih, hnames, eraseDups_append_toList]

/-- A run reports how many names its document defines. -/
theorem discovered_ofDocument (doc : Document) :
    (ofDocument doc).discovered = .discovered doc.scalarNames.toFinset.card doc.interfaceNames.toFinset.card := by
  have hinterfaces : (ofDocument doc).interfaces.length = doc.interfaceNames.eraseDups.length := by
    rw [← interfaceNames_ofDocument]
    exact (List.length_map _).symm
  unfold discovered
  rw [scalars_ofDocument, hinterfaces, length_eraseDups, length_eraseDups]

end Catalog
end SchemaDart
