import SchemaDart.Proofs.References

/-!
# The order of definitions

The catalog is made of the whole document before anything is declared, so a definition may stand anywhere.  Documents
with the same definitions in another order, and with the same last interface under every name, give the same
declarations, each where its definition stands (`generation_independent_of_order`).

A run looks at the definitions before the present one in one respect only, whether one of them was a schema.  So
whether it meets any degradation is a matter of each definition by itself and of the number of schemas
(`Context.trace_quiet_iff`), and neither depends on the order.
-/

namespace SchemaDart

/-! ## Runs without degradations -/

namespace Context

variable (c : Context)

/-- With a schema before it, a schema meets one degradation more; other definitions take no notice. -/
theorem degradations_repeated (repeated : Bool) (d : Definition) :
    c.degradations repeated d =
      c.degradations false d ++ if repeated && d.isSchema then [.repeatedSchema] else [] := by
  obtain ⟨body, directives, lines⟩ := d
  cases body with
  | define system => cases system <;> cases repeated <;> simp [degradations, Definition.isSchema]
  | _ => cases repeated <;> simp [degradations, Definition.isSchema]

theorem quiet_step_iff (repeated : Bool) (d : Definition) :
    (∀ e ∈ (c.degradations repeated d).map Event.degraded ++ d.announcement, e.degradation? = none) ↔
      c.degradations false d = [] ∧ ¬ (repeated = true ∧ d.isSchema = true) := by
  have hannounced : ∀ e ∈ d.announcement, e.degradation? = none := by
    intro e he
    rw [Definition.eq_emitting_of_mem_announcement he]
    rfl
  have hdegraded : (∀ e ∈ (c.degradations repeated d).map Event.degraded, e.degradation? = none) ↔
      c.degradations repeated d = [] := by
    rw [List.forall_mem_map]
    constructor
    · intro h
      exact List.eq_nil_iff_forall_not_mem.mpr fun g hg => nomatch h g hg
    · intro h g hg
      rw [h] at hg
      cases hg
  rw [List.forall_mem_append, hdegraded, and_iff_left hannounced, degradations_repeated, List.append_eq_nil_iff]
  refine and_congr_right fun _ => ?_
  cases repeated <;> cases d.isSchema <;> simp

/-- A run meets no degradation exactly if no definition meets one by itself and there are not two schemas, one that
has come before the run included. -/
theorem trace_quiet_iff (repeated : Bool) (ds : List Definition) :
    (∀ e ∈ c.trace repeated ds, e.degradation? = none) ↔
      (∀ d ∈ ds, c.degradations false d = []) ∧ repeated.toNat + ds.countP Definition.isSchema ≤ 1 := by
  induction ds generalizing repeated with
  | nil => cases repeated <;> simp [trace]
  | cons d ds ih =>
    rw [trace, List.forall_mem_append, quiet_step_iff, ih, List.forall_mem_cons, List.countP_cons]
    -- the schemas of the rest are counted behind `d`
    have hcount : (¬ (repeated = true ∧ d.isSchema = true) ∧
          (repeated || d.isSchema).toNat + ds.countP Definition.isSchema ≤ 1) ↔
        repeated.toNat + (ds.countP Definition.isSchema + if d.isSchema = true then 1 else 0) ≤ 1 := by
      generalize ds.countP Definition.isSchema = schemas
      cases repeated <;> cases d.isSchema <;> grind
    rw [← hcount]
    tauto

end Context

/-- A run succeeds, unless it is strict and meets a degradation. -/
theorem generate_succeeds_iff (config : Config) (doc : Document) :
    (∃ lib, (generate config doc).result = .ok lib) ↔
      (config.strict = true →
        (∀ d ∈ doc, (Context.ofDocument config doc).degradations false d = []) ∧
          doc.countP Definition.isSchema ≤ 1) := by
  obtain ⟨marker, headers, strict⟩ := config
  cases strict with
  | false =>
    rw [generate_lenient rfl]
    exact ⟨fun _ h => (nomatch h), fun _ => ⟨_, rfl⟩⟩
  | true =>
    have hquiet : (generate ⟨marker, headers, false⟩ doc).degradation? = none ↔
        (∀ d ∈ doc, (Context.ofDocument ⟨marker, headers, false⟩ doc).degradations false d = []) ∧
          doc.countP Definition.isSchema ≤ 1 := by
      have htrace := (Context.ofDocument ⟨marker, headers, false⟩ doc).trace_quiet_iff false doc
      rw [Bool.toNat_false, Nat.zero_add] at htrace
      rw [← htrace, Logged.degradation?_eq_none_iff, generate_lenient rfl]
      -- the first and the last event are no degradations
      simp only [List.cons_append, List.forall_mem_cons, List.forall_mem_append]
      exact ⟨fun h => h.2.1, fun h => ⟨rfl, h, rfl, fun _ h => nomatch h⟩⟩
    rw [generate_strict]
    unfold Logged.cut
    cases h : (generate ⟨marker, headers, false⟩ doc).degradation? with
    | none =>
      rw [generate_lenient rfl]
      exact ⟨fun _ _ => hquiet.mp h, fun _ => ⟨_, rfl⟩⟩
    | some g =>
      refine ⟨fun ⟨_, h⟩ => (nomatch h), fun hq => ?_⟩
      rw [hquiet.mpr (hq rfl)] at h
      cases h

/-! ## Documents in another order -/

/-- Of contexts that agree on a definition, both meet the same degradations there. -/
theorem Context.Agree.degradations_eq {c c' : Context} {d : Definition} (h : c.Agree c' d) (repeated : Bool) :
    c.degradations repeated d = c'.degradations repeated d := by
  have hunresolved := h.unresolved_eq
  unfold Definition.implemented at hunresolved
  unfold degradations
  cases hb : d.body with
  | define system =>
    rw [hb] at hunresolved
    cases system with
    | object t =>
      simp only at hunresolved ⊢
      rw [hunresolved]
    | _ => rfl
  | _ => rfl

section Permuted

variable {doc doc' : Document} (hperm : doc.Perm doc')
  (hlast : ∀ name, doc.lastInterface? name = doc'.lastInterface? name)
include hperm hlast

theorem agree_of_perm (config : Config) (d : Definition) :
    (Context.ofDocument config doc).Agree (Context.ofDocument config doc') d where
  config := rfl
  scalar name _ := by
    show (Catalog.ofDocument doc).isScalar name = (Catalog.ofDocument doc').isScalar name
    rw [Bool.eq_iff_iff, Catalog.isScalar_ofDocument, Catalog.isScalar_ofDocument]
    simp only [Document.DefinesScalar, hperm.mem_iff]
  interface name _ := by
    show (Catalog.ofDocument doc).interface? name = (Catalog.ofDocument doc').interface? name
    rw [Catalog.interface?_ofDocument, Catalog.interface?_ofDocument, hlast]

theorem succeeds_of_perm (config : Config) :
    (∃ lib, (generate config doc).result = .ok lib) ↔ ∃ lib, (generate config doc').result = .ok lib := by
  rw [generate_succeeds_iff, generate_succeeds_iff, hperm.countP_eq]
  simp only [(agree_of_perm hperm hlast config _).degradations_eq, hperm.mem_iff]

end Permuted

/-- What a definition declares, for one that declares something. -/
def Context.declared (c : Context) (d : Definition) : Declaration := (c.declaration? d).getD (.ofSchema .empty)

theorem Context.declarations_eq_map (c : Context) (doc : Document) :
    doc.filterMap c.declaration? = (doc.filter Definition.declares).map c.declared := by
  induction doc with
  | nil => rfl
  | cons d doc ih =>
    have hsome := c.isSome_declaration? d
    cases h : c.declaration? d with
    | none =>
      rw [h] at hsome
      rw [List.filterMap_cons_none h, ih, List.filter_cons_of_neg (by rw [← hsome]; decide)]
    | some decl =>
      rw [h] at hsome
      have hdeclared : c.declared d = decl := by unfold declared; rw [h]; rfl
      rw [List.filterMap_cons_some h, ih, List.filter_cons_of_pos hsome.symm, List.map_cons, hdeclared]

/-- **Generation does not depend on the order of definitions.**  For documents with the same definitions in any two
orders, if under every name the last interface is the same: a run over one succeeds, strict or not, exactly if the
run over the other does; and then every definition has the same declaration in both libraries, so that each library
lists these declarations in the order of its document. -/
theorem generation_independent_of_order (config : Config) {doc doc' : Document} (hperm : doc.Perm doc')
    (hlast : ∀ name, doc.lastInterface? name = doc'.lastInterface? name) :
    ((∃ lib, (generate config doc).result = .ok lib) ↔ ∃ lib, (generate config doc').result = .ok lib) ∧
    ∀ lib lib', (generate config doc).result = .ok lib → (generate config doc').result = .ok lib' →
      (doc.emissions lib).Perm (doc'.emissions lib') ∧
      ∃ declared : Definition → Declaration,
        lib.declarations = (doc.filter Definition.declares).map declared ∧
        lib'.declarations = (doc'.filter Definition.declares).map declared := by
  refine ⟨succeeds_of_perm hperm hlast config, fun lib lib' h h' => ?_⟩
  have hsame : (Context.ofDocument config doc').declaration? = (Context.ofDocument config doc).declaration? :=
    funext fun d => (agree_of_perm hperm hlast config d).declaration?_eq.symm
  have hlib := generate_ok h
  have hlib' := generate_ok h'
  rw [Context.declarations_eq_map] at hlib
  rw [hsame, Context.declarations_eq_map] at hlib'
  refine ⟨?_, _, hlib, hlib'⟩
  unfold Document.emissions
  rw [hlib, hlib', ← List.map_prod_left_eq_zip, ← List.map_prod_left_eq_zip]
  exact (hperm.filter _).map _

/-- An object with a field of type `S` that implements `A`. -/
def earlyObject : Document :=
  [⟨.define (.object ⟨"O", ["A"], [⟨"x", .list (.named "S" true) false, [], []⟩, ⟨"a", .named "Int" false, [], []⟩]⟩),
    [], none⟩]

/-- What that object refers to; of two interfaces `A` the last counts. -/
def lateDefinitions : Document :=
  [⟨.define (.interface ⟨"A", [], [⟨"x", .named "S" false, [], []⟩]⟩), [], none⟩,
    ⟨.define (.scalar "S"), [], none⟩,
    ⟨.define (.interface ⟨"A", [], [⟨"a", .named "Int" false, [], []⟩]⟩), [], none⟩]

theorem earlyObject_moved_to_the_end :
    ∃ lib lib', (generate ⟨"dynamic", true, true⟩ (earlyObject ++ lateDefinitions)).result = .ok lib ∧
      (generate ⟨"dynamic", true, true⟩ (lateDefinitions ++ earlyObject)).result = .ok lib' ∧ lib ≠ lib' ∧
      (Document.emissions (earlyObject ++ lateDefinitions) lib).Perm
        (Document.emissions (lateDefinitions ++ earlyObject) lib') := by
  have hperm : (earlyObject ++ lateDefinitions).Perm (lateDefinitions ++ earlyObject) := List.perm_append_comm
  obtain ⟨-, hlibs⟩ := generation_independent_of_order ⟨"dynamic", true, true⟩ hperm (fun _ => rfl)
  exact ⟨_, _, rfl, rfl, by decide, (hlibs _ _ rfl rfl).1⟩

end SchemaDart
