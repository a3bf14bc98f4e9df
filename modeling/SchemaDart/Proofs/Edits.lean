import SchemaDart.Proofs.References

/-!
# Inserting a definition

A definition that is inserted into a document gets a declaration of its own, and may change those of others: a new
scalar takes its name away from types that refer to it, a new interface takes fields away from the objects that
implement it.  `Unaffected` says which definitions an insertion does not concern; their declarations stay as they
are (`insertion_keeps_unaffected`).

What the insertion does to the catalog is said once for scalars (`isScalar_insert`) and once for interfaces
(`interface?_insert`).  All else is a matter of what a declaration depends on.
-/

namespace SchemaDart

/-- The insertion of `x` between `before` and `after` does not concern the definition `d` of the document. -/
inductive Unaffected (before after : List Definition) (x d : Definition) : Prop
  /-- Other definitions do not look at `x`. -/
  | unlisted (hscalar : ∀ name, x.body ≠ .define (.scalar name)) (hinterface : ∀ t, x.body ≠ .define (.interface t))
  /-- The document defines a scalar of that name already. -/
  | knownScalar {name : String} (hx : x.body = .define (.scalar name))
      (h : Document.DefinesScalar (before ++ after) name)
  /-- No type in `d` refers to the scalar. -/
  | unusedScalar {name : String} (hx : x.body = .define (.scalar name)) (h : name ∉ d.references)
  /-- `d` is no object that implements the interface. -/
  | notImplemented {t : CompositeType} (hx : x.body = .define (.interface t)) (h : t.name ∉ d.implemented)
  /-- An interface of the same name comes behind `x`. -/
  | redefined {t : CompositeType} (hx : x.body = .define (.interface t))
      (h : Document.DefinesInterface after t.name)

section Insertion

variable {before after : List Definition} {x : Definition}

/-- What is known as a scalar changes for the name of a new scalar only. -/
theorem isScalar_insert {name : String}
    (h : x.body = .define (.scalar name) → Document.DefinesScalar (before ++ after) name) :
    (Catalog.ofDocument (before ++ x :: after)).isScalar name =
      (Catalog.ofDocument (before ++ after)).isScalar name := by
  have hinsert : Document.DefinesScalar (before ++ x :: after) name ↔
      x.body = .define (.scalar name) ∨ Document.DefinesScalar (before ++ after) name := by
    unfold Document.DefinesScalar
    simp only [List.mem_append, List.mem_cons, or_and_right, exists_or, exists_eq_left]
    exact or_left_comm
  rw [Bool.eq_iff_iff, Catalog.isScalar_ofDocument, Catalog.isScalar_ofDocument, hinsert]
  exact or_iff_right_of_imp h

/-- What is found under the name of an interface changes for the name of a new interface only, and not if another
of that name comes behind it. -/
theorem interface?_insert {name : String}
    (h : ∀ t, x.body = .define (.interface t) → t.name = name → Document.DefinesInterface after name) :
    (Catalog.ofDocument (before ++ x :: after)).interface? name =
      (Catalog.ofDocument (before ++ after)).interface? name := by
  rw [Catalog.interface?_ofDocument, Catalog.interface?_ofDocument, Document.lastInterface?_append,
    Document.lastInterface?_append, Document.lastInterface?_cons]
  cases hlast : Document.lastInterface? after name with
  | some t => rfl
  | none =>
    -- then `x` is no interface of this name
    have hx : x.interface?.filter (·.name = name) = none := by
      rw [Option.filter_eq_none_iff]
      intro t ht hname
      have hafter := h t (Definition.interface?_eq_some_iff.mp ht) (of_decide_eq_true hname)
      exact Document.lastInterface?_eq_none_iff.mp hlast hafter
    rw [hx, Option.none_or]

theorem Unaffected.agree {d : Definition} (h : Unaffected before after x d) (config : Config) :
    (Context.ofDocument config (before ++ x :: after)).Agree (Context.ofDocument config (before ++ after)) d where
  config := rfl
  scalar name hname := by
    refine isScalar_insert fun hx => ?_
    cases h with
    | unlisted hscalar _ => exact absurd hx (hscalar name)
    | knownScalar hx' h =>
      cases hx.symm.trans hx'
      exact h
    | unusedScalar hx' h =>
      cases hx.symm.trans hx'
      exact absurd hname h
    | notImplemented hx' _ => cases hx.symm.trans hx'
    | redefined hx' _ => cases hx.symm.trans hx'
  interface name hname := by
    refine interface?_insert fun t hx ht => ?_
    cases h with
    | unlisted _ hinterface => exact absurd hx (hinterface t)
    | knownScalar hx' _ => cases hx.symm.trans hx'
    | unusedScalar hx' _ => cases hx.symm.trans hx'
    | notImplemented hx' h =>
      cases hx.symm.trans hx'
      rw [ht] at h
      exact absurd hname h
    | redefined hx' h =>
      cases hx.symm.trans hx'
      rwa [ht] at h

end Insertion

/-- **An edit changes only the declarations it concerns.**  Lenient runs over a document and over the same document
with `x` inserted: both libraries have a declaration for each definition that declares something, in order, and
that of `x` stands in the second where `x` stands.  A definition that the insertion does not concern has the same
declaration in both; if it concerns none, the second library is the first with the declaration of `x` inserted. -/
theorem insertion_keeps_unaffected (marker : String) (headers : Bool) (before after : List Definition)
    (x : Definition) :
    let config : Config := ⟨marker, headers, false⟩
    let old := (Context.ofDocument config (before ++ after)).declaration?
    let new := (Context.ofDocument config (before ++ x :: after)).declaration?
    (generate config (before ++ after)).result = .ok ⟨before.filterMap old ++ after.filterMap old⟩ ∧
    (generate config (before ++ x :: after)).result =
      .ok ⟨before.filterMap new ++ (new x).toList ++ after.filterMap new⟩ ∧
    (∀ d, (old d).isSome = d.declares ∧ (new d).isSome = d.declares) ∧
    (∀ d ∈ before ++ after, Unaffected before after x d → new d = old d) ∧
    ((∀ d ∈ before ++ after, Unaffected before after x d) →
      (generate config (before ++ x :: after)).result =
        .ok ⟨before.filterMap old ++ (new x).toList ++ after.filterMap old⟩) := by
  intro config old new
  have hold : (generate config (before ++ after)).result = .ok ⟨before.filterMap old ++ after.filterMap old⟩ := by
    rw [generate_lenient rfl, List.filterMap_append]
  have hnew : (generate config (before ++ x :: after)).result =
      .ok ⟨before.filterMap new ++ (new x).toList ++ after.filterMap new⟩ := by
    have hmiddle : (before ++ x :: after).filterMap new =
        before.filterMap new ++ (new x).toList ++ after.filterMap new := by
      rw [List.filterMap_append, List.filterMap_cons, List.append_assoc]
      cases new x <;> rfl
    rw [generate_lenient rfl, ← hmiddle]
  have hsame : ∀ d, Unaffected before after x d → new d = old d := fun d h => (h.agree config).declaration?_eq
  refine ⟨hold, hnew, fun d => ⟨Context.isSome_declaration? _ d, Context.isSome_declaration? _ d⟩,
    fun d _ => hsame d, fun hall => ?_⟩
  have hbefore : before.filterMap new = before.filterMap old :=
    List.filterMap_congr fun d hd => hsame d (hall d (List.mem_append_left _ hd))
  have hafter : after.filterMap new = after.filterMap old :=
    List.filterMap_congr fun d hd => hsame d (hall d (List.mem_append_right _ hd))
  rw [hnew, hbefore, hafter]

/-- One more interface `A`, with a field that the last one does not have. -/
def anotherInterface : Definition :=
  ⟨.define (.interface ⟨"A", [], [⟨"x", .named "Int" false, [], []⟩]⟩), [], none⟩

theorem anotherInterface_concerns_nothing :
    ∃ lib lib' decl, (generate .standard lateInterfaces).result = .ok lib ∧
      (generate .standard (lateInterfaces.take 1 ++ anotherInterface :: lateInterfaces.drop 1)).result = .ok lib' ∧
      lib'.declarations = lib.declarations.insertIdx 1 decl := by
  obtain ⟨hold, -, -, -, hnew⟩ := insertion_keeps_unaffected "dynamic" true (lateInterfaces.take 1)
    (lateInterfaces.drop 1) anotherInterface
  exact ⟨_, _, _, hold, hnew fun _ _ => .redefined rfl ⟨_, List.mem_cons_self, _, rfl, rfl⟩, rfl⟩

end SchemaDart
