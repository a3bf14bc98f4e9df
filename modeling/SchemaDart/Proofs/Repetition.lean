import SchemaDart.Proofs.Discovery
import SchemaDart.Proofs.References

/-!
# Repeated and scattered definitions

A name stands in the catalog where the document defines it first, and what is found under it is what the document
defines last.  Both are invariants of entering one definition after the other, whatever stands between two definitions
of one name: `Document.Lists.concat` for the places of the names, and `interface?_ofDocument` for what they stand for.

So a document that goes on adds names behind those that are there, and replaces what it defines again
(`scalars_append`, `interfaceNames_append`, `interface?_append`).
-/

namespace SchemaDart

/-- The name of the interface that a definition defines. -/
def Definition.interfaceName? (d : Definition) : Option String := d.interface?.map CompositeType.name

namespace Document

/-- The names are those that definitions of the document have by `name?`, each once, in the order of the definitions
that have them first. -/
structure Lists (doc : Document) (name? : Definition → Option String) (names : List String) : Prop where
  nodup : names.Nodup
  mem_iff : ∀ name, name ∈ names ↔ ∃ d ∈ doc, name? d = some name
  ordered : names.Pairwise fun m n => doc.findIdx (name? · = some m) < doc.findIdx (name? · = some n)

variable {doc : Document} {name? : Definition → Option String} {names : List String}

theorem findIdx_lt_length {name : String} (h : ∃ d ∈ doc, name? d = some name) :
    doc.findIdx (name? · = some name) < doc.length :=
  List.findIdx_lt_length.mpr (by simpa using h)

theorem findIdx_concat {name : String} (h : ∃ d ∈ doc, name? d = some name) (d : Definition) :
    (doc ++ [d]).findIdx (name? · = some name) = doc.findIdx (name? · = some name) := by
  rw [List.findIdx_append, if_pos (findIdx_lt_length h)]

theorem length_le_findIdx_concat {name : String} (h : ¬ ∃ d ∈ doc, name? d = some name) (d : Definition) :
    doc.length ≤ (doc ++ [d]).findIdx (name? · = some name) := by
  have habsent : doc.findIdx (name? · = some name) = doc.length := by
    rw [List.findIdx_eq_length]
    intro e he
    simpa using fun hname => h ⟨e, he, hname⟩
  rw [List.findIdx_append, habsent, if_neg (Nat.lt_irrefl _)]
  omega

/-- One more definition puts its name at the end, unless the name is there already. -/
theorem Lists.concat (h : doc.Lists name? names) (d : Definition) :
    Lists (doc ++ [d]) name?
      ((name? d).elim names fun name => if name ∈ names then names else names ++ [name]) := by
  have hkept : names.Pairwise fun m n =>
      (doc ++ [d]).findIdx (name? · = some m) < (doc ++ [d]).findIdx (name? · = some n) := by
    refine h.ordered.imp_of_mem fun hm hn hmn => ?_
    rwa [findIdx_concat ((h.mem_iff _).mp hm), findIdx_concat ((h.mem_iff _).mp hn)]
  have hmem : ∀ name, (∃ e ∈ doc ++ [d], name? e = some name) ↔ name ∈ names ∨ name? d = some name := by
    intro name
    simp [h.mem_iff, or_and_right, exists_or]
  cases hd : name? d with
  | none =>
    refine ⟨h.nodup, fun name => ?_, hkept⟩
    rw [hmem, hd]
    simp
  | some new =>
    by_cases hnew : new ∈ names
    · simp only [Option.elim_some, if_pos hnew]
      refine ⟨h.nodup, fun name => ?_, hkept⟩
      rw [hmem, hd, Option.some.injEq]
      constructor
      · exact Or.inl
      · rintro (hname | rfl)
        · exact hname
        · exact hnew
    · simp only [Option.elim_some, if_neg hnew]
      refine ⟨?_, fun name => ?_, ?_⟩
      · rw [← List.concat_eq_append]
        exact h.nodup.concat hnew
      · rw [hmem, hd, List.mem_append, List.mem_singleton, Option.some.injEq, @eq_comm _ new]
      · rw [List.pairwise_append]
        refine ⟨hkept, List.pairwise_singleton _ _, ?_⟩
        -- the definition at the end is the first to have the new name
        intro old hold last hlast
        rw [List.mem_singleton.mp hlast, findIdx_concat ((h.mem_iff old).mp hold)]
        have hlt := findIdx_lt_length ((h.mem_iff old).mp hold)
        have hge := length_le_findIdx_concat (mt (h.mem_iff new).mpr hnew) d
        omega

/-- The last definition of an interface is one behind which the name is not defined again. -/
theorem lastInterface?_eq_some_iff {name : String} {t : CompositeType} :
    doc.lastInterface? name = some t ↔
      ∃ before d after, doc = before ++ d :: after ∧ d.body = .define (.interface t) ∧ t.name = name ∧
        ¬ DefinesInterface after name := by
  constructor
  · intro h
    induction doc with
    | nil => cases h
    | cons d doc ih =>
      rw [lastInterface?_cons] at h
      cases hlast : lastInterface? doc name with
      | some t' =>
        rw [hlast, Option.some_or] at h
        obtain ⟨before, d', after, rfl, hd'⟩ := ih (hlast.trans h)
        exact ⟨d :: before, d', after, rfl, hd'⟩
      | none =>
        rw [hlast, Option.none_or, Option.filter_eq_some_iff] at h
        exact ⟨[], d, doc, rfl, Definition.interface?_eq_some_iff.mp h.1, by simpa using h.2,
          lastInterface?_eq_none_iff.mp hlast⟩
  · rintro ⟨before, d, after, rfl, hd, rfl, hafter⟩
    have hnone : lastInterface? after t.name = none := lastInterface?_eq_none_iff.mpr hafter
    have hsome : d.interface?.filter (·.name = t.name) = some t := by
      simp [Definition.interface?_eq_some_iff.mpr hd, Option.filter]
    rw [lastInterface?_append, lastInterface?_cons, hnone, hsome, Option.none_or, Option.some_or]

end Document

namespace Catalog

theorem lists_scalars (doc : Document) : doc.Lists Definition.scalarName? (ofDocument doc).scalars := by
  induction doc using List.reverseRecOn with
  | nil => exact ⟨List.nodup_nil, by simp [ofDocument, empty], List.Pairwise.nil⟩
  | append_singleton doc d ih =>
    rw [ofDocument_concat, scalars_add]
    exact ih.concat d

theorem lists_interfaceNames (doc : Document) :
    doc.Lists Definition.interfaceName? (ofDocument doc).interfaceNames := by
  induction doc using List.reverseRecOn with
  | nil => exact ⟨List.nodup_nil, by simp [ofDocument, empty, interfaceNames, Table.keys], List.Pairwise.nil⟩
  | append_singleton doc d ih =>
    rw [ofDocument_concat, interfaceNames_add]
    exact ih.concat d

theorem scalars_append (doc doc' : Document) :
    (ofDocument (doc ++ doc')).scalars =
      (ofDocument doc).scalars ++ (ofDocument doc').scalars.filter (· ∉ (ofDocument doc).scalars) := by
  have hnames : Document.scalarNames (doc ++ doc') = doc.scalarNames ++ doc'.scalarNames := List.filterMap_append
  rw [scalars_ofDocument, scalars_ofDocument, scalars_ofDocument, hnames, eraseDups_append_filter]

theorem interfaceNames_append (doc doc' : Document) :
    (ofDocument (doc ++ doc')).interfaceNames =
      (ofDocument doc).interfaceNames ++
        (ofDocument doc').interfaceNames.filter (· ∉ (ofDocument doc).interfaceNames) := by
  have hnames : Document.interfaceNames (doc ++ doc') = doc.interfaceNames ++ doc'.interfaceNames := by
    unfold Document.interfaceNames
    rw [List.filterMap_append, List.map_append]
  rw [interfaceNames_ofDocument, interfaceNames_ofDocument, interfaceNames_ofDocument, hnames, eraseDups_append_filter]

theorem interface?_append (doc doc' : Document) (name : String) :
    (ofDocument (doc ++ doc')).interface? name =
      ((ofDocument doc').interface? name).or ((ofDocument doc).interface? name) := by
  simp only [interface?_ofDocument, Document.lastInterface?_append]

end Catalog

/-- **Names have the place of their first definition and stand for the last.**  The catalog lists scalars and interfaces
by first definitions, knows as scalars exactly what is defined as such, and finds the last interface of a name.  If the
document goes on, the names that are new follow, and an interface is that of the continuation if it is defined there. -/
theorem catalog_of_repeated_definitions (doc : Document) :
    let catalog := Catalog.ofDocument doc
    doc.Lists Definition.scalarName? catalog.scalars ∧
    doc.Lists Definition.interfaceName? catalog.interfaceNames ∧
    (∀ name, catalog.isScalar name = true ↔ doc.DefinesScalar name) ∧
    (∀ name t, catalog.interface? name = some t ↔
      ∃ before d after, doc = before ++ d :: after ∧ d.body = .define (.interface t) ∧ t.name = name ∧
        ¬ Document.DefinesInterface after name) ∧
    (∀ name, catalog.interface? name = none ↔ ¬ doc.DefinesInterface name) ∧
    ∀ doc' : Document,
      let catalog' := Catalog.ofDocument doc'
      let both := Catalog.ofDocument (doc ++ doc')
      both.scalars = catalog.scalars ++ catalog'.scalars.filter (· ∉ catalog.scalars) ∧
      both.interfaceNames =
        catalog.interfaceNames ++ catalog'.interfaceNames.filter (· ∉ catalog.interfaceNames) ∧
      ∀ name, (doc'.DefinesInterface name → both.interface? name = catalog'.interface? name) ∧
        (¬ doc'.DefinesInterface name → both.interface? name = catalog.interface? name) := by
  intro catalog
  have hnone : ∀ (doc : Document) (name : String),
      (Catalog.ofDocument doc).interface? name = none ↔ ¬ doc.DefinesInterface name := by
    intro doc name
    rw [Catalog.interface?_ofDocument, Document.lastInterface?_eq_none_iff]
  refine ⟨Catalog.lists_scalars doc, Catalog.lists_interfaceNames doc, Catalog.isScalar_ofDocument doc, ?_, hnone doc, ?_⟩
  · intro name t
    rw [Catalog.interface?_ofDocument, Document.lastInterface?_eq_some_iff]
  · intro doc' catalog' both
    refine ⟨Catalog.scalars_append doc doc', Catalog.interfaceNames_append doc doc', fun name => ⟨?_, ?_⟩⟩
    · intro hname
      obtain ⟨t, ht⟩ := Option.ne_none_iff_exists'.mp (mt (hnone doc' name).mp (not_not.mpr hname))
      rw [Catalog.interface?_append, ht, Option.some_or]
    · intro hname
      rw [Catalog.interface?_append, (hnone doc' name).mpr hname, Option.none_or]

/-- Definitions in between, an extension, and names that come again. -/
def scatteredDefinitions : Document :=
  [⟨.define (.interface ⟨"Node", [], [⟨"id", .named "ID" true, [], []⟩]⟩), [], none⟩,
    ⟨.define (.scalar "Date"), [], none⟩, ⟨.extend (.scalar "Uri"), [], none⟩,
    ⟨.define (.interface ⟨"Star", [], []⟩), [], none⟩, ⟨.define (.scalar "Time"), [], none⟩,
    ⟨.define (.interface ⟨"Node", [], [⟨"key", .named "ID" true, [], []⟩]⟩), [], none⟩,
    ⟨.define (.scalar "Date"), [], none⟩]

def laterDefinitions : Document :=
  [⟨.define (.scalar "Time"), [], none⟩, ⟨.define (.interface ⟨"Node", ["Star"], []⟩), [], none⟩,
    ⟨.define (.scalar "Uri"), [], none⟩]

theorem scatteredDefinitions_catalog :
    let catalog := Catalog.ofDocument (scatteredDefinitions ++ laterDefinitions)
    catalog.scalars = ["Date", "Time", "Uri"] ∧ catalog.interfaceNames = ["Node", "Star"] ∧
      laterDefinitions.DefinesInterface "Node" ∧ catalog.interface? "Node" = some ⟨"Node", ["Star"], []⟩ ∧
      ¬ laterDefinitions.DefinesInterface "Star" ∧ catalog.interface? "Star" = some ⟨"Star", [], []⟩ := by
  intro catalog
  obtain ⟨-, -, -, -, -, happend⟩ := catalog_of_repeated_definitions scatteredDefinitions
  obtain ⟨hscalars, hinterfaces, hfound⟩ := happend laterDefinitions
  have hnode : laterDefinitions.DefinesInterface "Node" := ⟨_, .tail _ (.head _), _, rfl, rfl⟩
  have hstar : ¬ laterDefinitions.DefinesInterface "Star" :=
    Document.lastInterface?_eq_none_iff.mp (by decide)
  exact ⟨hscalars.trans rfl, hinterfaces.trans rfl, hnode, ((hfound "Node").1 hnode).trans rfl, hstar,
    ((hfound "Star").2 hstar).trans rfl⟩

end SchemaDart
