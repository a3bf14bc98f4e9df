import SchemaDart.Catalog

/-!
# The interfaces of a document

What the catalog of a document finds under the name of an interface, said without the catalog: the last definition
of that name, wherever in the document it stands (`interface?_ofDocument`), and nothing exactly for a name that the
document does not define (`lastInterface?_eq_none_iff`).
-/

namespace SchemaDart

/-- The interface that a definition defines. -/
def Definition.interface? (d : Definition) : Option CompositeType :=
  match d.body with
  | .define (.interface type) => some type
  | _ => none

theorem Definition.interface?_eq_some_iff {d : Definition} {t : CompositeType} :
    d.interface? = some t ↔ d.body = .define (.interface t) := by
  unfold Definition.interface?
  constructor
  · intro h
    split at h
    · next t' hb => rw [hb, Option.some.inj h]
    · cases h
  · intro h
    rw [h]

namespace Document

/-- The last interface of a name that the document defines. -/
def lastInterface? (doc : Document) (name : String) : Option CompositeType :=
  (doc.filterMap Definition.interface?).reverse.find? (·.name = name)

/-- Some definition of the document is that of an interface of this name. -/
def DefinesInterface (doc : Document) (name : String) : Prop :=
  ∃ d ∈ doc, ∃ t, d.body = .define (.interface t) ∧ t.name = name

theorem lastInterface?_nil (name : String) : lastInterface? [] name = none := rfl

theorem lastInterface?_cons (d : Definition) (doc : Document) (name : String) :
    lastInterface? (d :: doc) name =
      (lastInterface? doc name).or (d.interface?.filter (·.name = name)) := by
  unfold lastInterface?
  cases h : d.interface? with
  | none => rw [List.filterMap_cons_none h, Option.filter_none, Option.or_none]
  | some t =>
    rw [List.filterMap_cons_some h, List.reverse_cons, List.find?_append]
    by_cases ht : t.name = name <;> simp [ht, Option.filter]

theorem lastInterface?_append (ds ds' : List Definition) (name : String) :
    lastInterface? (ds ++ ds') name = (lastInterface? ds' name).or (lastInterface? ds name) := by
  unfold lastInterface?
  rw [List.filterMap_append, List.reverse_append, List.find?_append]

/-- The last interface of a name is defined by the document, under that name. -/
theorem lastInterface?_eq_some {doc : Document} {name : String} {t : CompositeType}
    (h : doc.lastInterface? name = some t) :
    (∃ d ∈ doc, d.body = .define (.interface t)) ∧ t.name = name := by
  unfold lastInterface? at h
  have hname : t.name = name := by simpa using List.find?_some h
  have hmem := List.mem_of_find?_eq_some h
  rw [List.mem_reverse, List.mem_filterMap] at hmem
  obtain ⟨d, hd, hi⟩ := hmem
  exact ⟨⟨d, hd, Definition.interface?_eq_some_iff.mp hi⟩, hname⟩

theorem lastInterface?_eq_none_iff {doc : Document} {name : String} :
    doc.lastInterface? name = none ↔ ¬ doc.DefinesInterface name := by
  unfold lastInterface? DefinesInterface
  rw [List.find?_eq_none]
  constructor
  · rintro h ⟨d, hd, t, hb, ht⟩
    have hmem : t ∈ (doc.filterMap Definition.interface?).reverse := by
      rw [List.mem_reverse, List.mem_filterMap]
      exact ⟨d, hd, Definition.interface?_eq_some_iff.mpr hb⟩
    exact h t hmem (by simpa using ht)
  · intro h t hmem ht
    rw [List.mem_reverse, List.mem_filterMap] at hmem
    obtain ⟨d, hd, hi⟩ := hmem
    exact h ⟨d, hd, t, Definition.interface?_eq_some_iff.mp hi, by simpa using ht⟩

end Document

namespace Catalog

/-- One definition changes what is found under the name of the interface it defines, and nothing else. -/
theorem interface?_add (c : Catalog) (d : Definition) (name : String) :
    (c.add d).interface? name = (d.interface?.filter (·.name = name)).or (c.interface? name) := by
  obtain ⟨body, directives, lines⟩ := d
  cases body with
  | define system =>
    cases system with
    | scalar n =>
      -- the scalars change, or nothing does
      show Catalog.interface? (if n ∈ c.scalars then c else { c with scalars := c.scalars ++ [n] }) name = _
      split <;> rfl
    | interface t =>
      show Table.get? name (Table.insert t.name t c.interfaces) = _
      rw [Table.get?_insert]
      by_cases ht : t.name = name <;> simp [ht, Definition.interface?, Option.filter, interface?]
    | _ => rfl
  | _ => rfl

theorem interface?_foldl (ds : List Definition) (c : Catalog) (name : String) :
    (ds.foldl add c).interface? name = (Document.lastInterface? ds name).or (c.interface? name) := by
  induction ds generalizing c with
  | nil => rw [Document.lastInterface?_nil, Option.none_or, List.foldl_nil]
  | cons d ds ih =>
    rw [List.foldl_cons, ih, interface?_add, Document.lastInterface?_cons, Option.or_assoc]

/-- The catalog of a document knows the last interface of every name. -/
theorem interface?_ofDocument (doc : Document) (name : String) :
    (ofDocument doc).interface? name = doc.lastInterface? name := by
  unfold ofDocument
  rw [interface?_foldl]
  exact Option.or_none

end Catalog
end SchemaDart
