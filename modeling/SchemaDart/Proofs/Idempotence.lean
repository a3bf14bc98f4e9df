import SchemaDart.Proofs.Translation

/-!
# Naming a type twice

Naming is meant for the names of the document.  Applied to its own results it changes nothing if these stay as they are,
and there are only two sorts of results that might not: the marker and the Dart names of the built-in scalars
(`idempotent_iff_fixed`).  The marker is changed if it has the name of a built-in scalar (`fixes_marker_iff`), and a
Dart name if the document defines a scalar of that name (`fixes_dartName_iff`).
-/

namespace SchemaDart

/-- Puts another name inside all lists. -/
def TypeRef.rename (f : String → String) : TypeRef → TypeRef
  | .named name nonNull => .named (f name) nonNull
  | .list element nonNull => .list (element.rename f) nonNull

/-- What naming gives for the document is named by itself. -/
structure Document.Stable (doc : Document) (marker : String) : Prop where
  /-- The marker stays, if the document has scalars that become the marker.  Of the names of built-in scalars `String`
  is not listed, being its own Dart name. -/
  scalars : (∀ name, ¬ doc.DefinesScalar name) ∨ doc.DefinesScalar marker ∨ marker ∉ ["Int", "Float", "Boolean", "ID"]
  /-- A Dart name stays, if it stands for a built-in scalar that the document does not define. -/
  builtins : ∀ s : BuiltinScalar, ¬ doc.DefinesScalar s.graphqlName → doc.DefinesScalar s.dartName → s.dartName = marker

namespace BuiltinScalar

theorem dartName_eq_graphqlName_iff (s : BuiltinScalar) :
    s.dartName = s.graphqlName ↔ s.graphqlName ∉ ["Int", "Float", "Boolean", "ID"] := by
  cases s <;> decide

/-- A Dart name of a built-in scalar is no GraphQL name of one, apart from `String`. -/
theorem dartName_cases (s : BuiltinScalar) :
    s.dartName = string.graphqlName ∨ ∀ s' : BuiltinScalar, s'.graphqlName ≠ s.dartName := by
  cases s with
  | string => exact .inl rfl
  | id => exact .inl rfl
  | _ => exact .inr fun s' => by cases s' <;> decide

end BuiltinScalar

namespace Document.Translation

variable {doc : Document} {marker : String} {translate : String → String}

theorem fixes_marker_iff (h : doc.Translation marker translate) :
    translate marker = marker ↔ doc.DefinesScalar marker ∨ marker ∉ ["Int", "Float", "Boolean", "ID"] := by
  by_cases hscalar : doc.DefinesScalar marker
  · exact iff_of_true (h.scalar marker hscalar) (.inl hscalar)
  rw [or_iff_right hscalar]
  by_cases hbuiltin : ∃ s : BuiltinScalar, s.graphqlName = marker
  · obtain ⟨s, rfl⟩ := hbuiltin
    rw [h.builtin s hscalar, s.dartName_eq_graphqlName_iff]
  · have hother : ∀ s : BuiltinScalar, s.graphqlName ≠ marker := fun s hs => hbuiltin ⟨s, hs⟩
    refine iff_of_true (h.other marker hscalar hother) ?_
    simp only [List.mem_cons, List.not_mem_nil, or_false, not_or]
    exact ⟨(hother .int).symm, (hother .float).symm, (hother .boolean).symm, (hother .id).symm⟩

theorem fixes_dartName_iff (h : doc.Translation marker translate) (s : BuiltinScalar) :
    translate s.dartName = s.dartName ↔ (doc.DefinesScalar s.dartName → s.dartName = marker) := by
  by_cases hscalar : doc.DefinesScalar s.dartName
  · rw [h.scalar _ hscalar, imp_iff_right hscalar, eq_comm]
  · refine iff_of_true ?_ fun hs => absurd hs hscalar
    rcases s.dartName_cases with hstring | hother
    · rw [hstring] at hscalar ⊢
      exact h.builtin .string hscalar
    · exact h.other _ hscalar hother

/-- Naming its own results changes nothing if it leaves the marker and the Dart names alone, where these are results. -/
theorem idempotent_iff_fixed (h : doc.Translation marker translate) :
    (∀ name, translate (translate name) = translate name) ↔
      ((∃ name, doc.DefinesScalar name) → translate marker = marker) ∧
        ∀ s : BuiltinScalar, ¬ doc.DefinesScalar s.graphqlName → translate s.dartName = s.dartName := by
  constructor
  · intro hidem
    constructor
    · rintro ⟨name, hname⟩
      rw [← h.scalar name hname]
      exact hidem name
    · intro s hs
      rw [← h.builtin s hs]
      exact hidem s.graphqlName
  · rintro ⟨hmarker, hdart⟩ name
    by_cases hscalar : doc.DefinesScalar name
    · rw [h.scalar name hscalar]
      exact hmarker ⟨name, hscalar⟩
    by_cases hbuiltin : ∃ s : BuiltinScalar, s.graphqlName = name
    · obtain ⟨s, rfl⟩ := hbuiltin
      rw [h.builtin s hscalar]
      exact hdart s hscalar
    · -- a name that stays the first time stays the second
      have hother := h.other name hscalar fun s hs => hbuiltin ⟨s, hs⟩
      rw [hother, hother]

theorem idempotent_iff_stable (h : doc.Translation marker translate) :
    (∀ name, translate (translate name) = translate name) ↔ doc.Stable marker := by
  have hmarker : ((∃ name, doc.DefinesScalar name) → translate marker = marker) ↔
      (∀ name, ¬ doc.DefinesScalar name) ∨ doc.DefinesScalar marker ∨ marker ∉ ["Int", "Float", "Boolean", "ID"] := by
    rw [h.fixes_marker_iff, imp_iff_not_or, not_exists]
  have hdart : (∀ s : BuiltinScalar, ¬ doc.DefinesScalar s.graphqlName → translate s.dartName = s.dartName) ↔
      ∀ s : BuiltinScalar, ¬ doc.DefinesScalar s.graphqlName → doc.DefinesScalar s.dartName → s.dartName = marker :=
    forall_congr' fun s => by rw [h.fixes_dartName_iff s]
  rw [h.idempotent_iff_fixed, hmarker, hdart]
  exact ⟨fun hs => ⟨hs.1, hs.2⟩, fun hs => ⟨hs.scalars, hs.builtins⟩⟩

end Document.Translation

/-- A type has the same Dart type as one with another name in it exactly if the names have the same Dart name. -/
theorem Naming.type_rename_eq_iff (n : Naming) (f : String → String) :
    (∀ t : TypeRef, n.type (t.rename f) = n.type t) ↔ ∀ name, n.name (f name) = n.name name := by
  constructor
  · intro h name
    exact DartType.named.inj (h (.named name false))
  · intro h t
    induction t with
    | named name nonNull => exact congrArg DartType.named (h name)
    | list element nonNull ih => exact congrArg DartType.list ih

/-- **Naming is idempotent exactly if no result of naming is named otherwise**, for names and for whole types. -/
theorem naming_idempotent_iff_stable (doc : Document) (marker : String) :
    let naming : Naming := ⟨Catalog.ofDocument doc, marker⟩
    ((∀ name, naming.name (naming.name name) = naming.name name) ↔ doc.Stable marker) ∧
    ((∀ t : TypeRef, naming.type (t.rename naming.name) = naming.type t) ↔ doc.Stable marker) := by
  intro naming
  have htranslation : doc.Translation marker naming.name := Context.translation_naming ⟨marker, true, false⟩ doc
  rw [naming.type_rename_eq_iff, htranslation.idempotent_iff_stable]
  exact ⟨Iff.rfl, Iff.rfl⟩

/-- A document may give the Dart name of `ID` to a scalar of its own, and naming twice then loses the built-in. -/
example :
    let naming : Naming := ⟨Catalog.ofDocument [⟨.define (.scalar "String"), [], none⟩], "dynamic"⟩
    naming.name "ID" = "String" ∧ naming.name (naming.name "ID") = "dynamic" := by decide

end SchemaDart
