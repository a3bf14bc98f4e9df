import SchemaDart.Proofs.Discovery
import SchemaDart.Proofs.Headers
import SchemaDart.Proofs.Offences
import SchemaDart.Proofs.References

/-!
# What the log accounts for

`Document.account` says, on the document alone, what a lenient run logs of the definition at a position: the warnings
that it gives rise to, and then that it is emitted, if it gives a declaration.  The log of the run is made of these
accounts, in document order, between an entry for the catalog and one for the library
(`log_accounts_for_definitions`).

A run goes over the definitions with a flag for the schemas seen, which the accounts take from the position.
`Context.account_step` is about one definition; `Context.trace_account`, `Context.trace_emitting` and
`Context.trace_warnings` are about all of them.
-/

namespace SchemaDart

namespace Document

instance (doc : Document) (name : String) : Decidable (doc.DefinesInterface name) :=
  decidable_of_iff (doc.lastInterface? name ≠ none) (by rw [ne_eq, lastInterface?_eq_none_iff, not_not])

/-- Those of the names that the document defines no interface for. -/
def missing (doc : Document) (names : List String) : List String :=
  names.filter fun name => ¬ doc.DefinesInterface name

/-- The entries for the definition at position `i`. -/
def account (doc : Document) (i : Nat) (d : Definition) : List LogEntry :=
  let warning (g : Degradation) : LogEntry := ⟨.warn, g.warning⟩
  let emitting (kind : String) : LogEntry := ⟨.debug, "emitting " ++ kind⟩
  match d.body with
  | .define (.object t) =>
    (doc.missing t.interfaces).map (fun name => warning (.unknownInterface t.name name)) ++
      [emitting "ObjectTypeDefinition"]
  | .define (.interface _) => [emitting "InterfaceTypeDefinition"]
  | .define (.input ..) => [emitting "InputObjectTypeDefinition"]
  | .define (.enum ..) => [emitting "EnumTypeDefinition"]
  | .define (.union ..) => [emitting "UnionTypeDefinition"]
  | .define (.schema _) =>
    (if (doc.take i).any Definition.isSchema then [warning .repeatedSchema] else []) ++ [emitting "SchemaDefinition"]
  | .define (.scalar _) => []
  | body => [warning (.unsupported body.kind body.name?)]

end Document

namespace Context

/-! ## One definition -/

theorem unresolved_ofDocument (config : Config) (doc : Document) (names : List String) :
    (ofDocument config doc).unresolved names = doc.missing names := by
  refine List.filter_congr fun name _ => ?_
  show ((Catalog.ofDocument doc).interface? name).isNone = _
  rw [Bool.eq_iff_iff, Option.isNone_iff_eq_none, Catalog.interface?_ofDocument,
    Document.lastInterface?_eq_none_iff, decide_eq_true_iff]

/-- What is logged of a definition is its account. -/
theorem account_step (config : Config) (doc : Document) (i : Nat) (d : Definition) :
    (((ofDocument config doc).degradations ((doc.take i).any Definition.isSchema) d).map Event.degraded ++
      d.announcement).map Event.entry = doc.account i d := by
  obtain ⟨body, directives, lines⟩ := d
  cases body with
  | define system =>
    cases system with
    | object t =>
      rw [degradations_of_object rfl, unresolved_ofDocument, List.map_append, List.map_map, List.map_map]
      rfl
    | schema operations =>
      rw [degradations_of_schema rfl]
      unfold Document.account
      cases (doc.take i).any Definition.isSchema <;> rfl
    | _ => rfl
  | _ => rfl

variable (c : Context)

/-- Of what is logged of a definition, all but the announcement are warnings. -/
theorem filter_debug_step (repeated : Bool) (d : Definition) :
    ((c.degradations repeated d).map Event.degraded ++ d.announcement).filter (·.level = .debug) = d.announcement := by
  have hwarnings : ((c.degradations repeated d).map Event.degraded).filter (·.level = .debug) = [] := by
    rw [List.filter_eq_nil_iff, List.forall_mem_map]
    exact fun g _ h => nomatch h
  rw [List.filter_append, hwarnings, List.nil_append]
  unfold Definition.announcement
  split <;> rfl

theorem countP_warn_step (repeated : Bool) (d : Definition) :
    ((c.degradations repeated d).map Event.degraded ++ d.announcement).countP (·.level = .warn) =
      (c.degradations repeated d).length := by
  have hannounced : d.announcement.countP (·.level = .warn) = 0 := by
    unfold Definition.announcement
    split <;> rfl
  rw [List.countP_append, hannounced, Nat.add_zero, List.countP_map]
  exact List.countP_eq_length.mpr fun g _ => rfl

theorem length_degradations (config : Config) (doc : Document) (repeated : Bool) (d : Definition) :
    ((ofDocument config doc).degradations repeated d).length =
      d.unsupported.toNat + (doc.missing d.implemented).length + (repeated && d.isSchema).toNat := by
  obtain ⟨body, directives, lines⟩ := d
  cases body with
  | define system =>
    cases system with
    | object t =>
      rw [degradations_of_object rfl, List.length_map, unresolved_ofDocument]
      cases repeated <;> simp [Definition.unsupported, Definition.implemented, Definition.isSchema]
    | _ => cases repeated <;> rfl
  | _ => cases repeated <;> rfl

end Context

theorem Definition.messages_announcement (d : Definition) :
    d.announcement.map Event.message = d.declaredKind?.toList.map ("emitting " ++ ·) := by
  rw [declaredKind?_eq]
  unfold announcement
  split <;> rfl

/-! ## All definitions -/

namespace Context

/-- From position `before.length` on, a run logs the accounts of the definitions there. -/
theorem trace_account (config : Config) {doc : Document} (before ds : List Definition) (hdoc : doc = before ++ ds) :
    ((ofDocument config doc).trace (before.any Definition.isSchema) ds).map Event.entry =
      (ds.mapIdx fun i d => doc.account (before.length + i) d).flatten := by
  induction ds generalizing before with
  | nil => rfl
  | cons d ds ih =>
    have hstep := account_step config doc before.length d
    have hbefore : doc.take before.length = before := by rw [hdoc, List.take_left]
    have hrest := ih (before ++ [d]) (by rw [hdoc, List.append_assoc]; rfl)
    rw [hbefore] at hstep
    rw [List.any_append, List.any_cons, List.any_nil, Bool.or_false, List.length_append] at hrest
    rw [trace, List.map_append, hstep, hrest, List.mapIdx_cons, List.flatten_cons]
    simp only [List.length_singleton, Nat.add_assoc, Nat.add_comm 1, Nat.add_zero]

theorem trace_emitting (c : Context) (repeated : Bool) (ds : List Definition) :
    ((c.trace repeated ds).filter (·.level = .debug)).map Event.message =
      (ds.filterMap Definition.declaredKind?).map ("emitting " ++ ·) := by
  induction ds generalizing repeated with
  | nil => rfl
  | cons d ds ih =>
    rw [trace, List.filter_append, filter_debug_step, List.map_append, ih, d.messages_announcement]
    cases h : d.declaredKind? <;> simp [h]

/-- A schema gives rise to a warning unless it is the first, also if that has come before the run. -/
theorem trace_warnings (config : Config) (doc : Document) (repeated : Bool) (ds : List Definition) :
    ((ofDocument config doc).trace repeated ds).countP (·.level = .warn) =
      ds.countP Definition.unsupported + (doc.missing (ds.flatMap Definition.implemented)).length +
        (repeated.toNat + ds.countP Definition.isSchema - 1) := by
  induction ds generalizing repeated with
  | nil => cases repeated <;> rfl
  | cons d ds ih =>
    have hmissing : (doc.missing ((d :: ds).flatMap Definition.implemented)).length =
        (doc.missing d.implemented).length + (doc.missing (ds.flatMap Definition.implemented)).length := by
      unfold Document.missing
      rw [List.flatMap_cons, List.filter_append, List.length_append]
    rw [trace, List.countP_append, countP_warn_step, length_degradations, ih, hmissing, List.countP_cons,
      List.countP_cons]
    cases repeated <;> cases d.unsupported <;> cases d.isSchema <;> simp <;> omega

end Context

/-- **The log of a lenient run accounts for every definition.**  The run succeeds.  Its log has the number of distinct
names of scalars and of interfaces, then the accounts of all definitions in document order, then the number of
declarations.  The kinds that it says are emitted are those of the definitions that give a declaration, and those in
the headers of the declarations.  There is a warning for each definition without counterpart, for each name that an
object implements and that is not that of an interface, and for each schema but the first. -/
theorem log_accounts_for_definitions (marker : String) (doc : Document) :
    let run := generate ⟨marker, true, false⟩ doc
    let accounts := (doc.mapIdx doc.account).flatten
    ∃ lib, run.result = .ok lib ∧
      run.log =
        ⟨.debug, "discovered " ++ doc.scalarNames.toFinset.card.repr ++ " custom scalar(s) and " ++
          doc.interfaceNames.toFinset.card.repr ++ " interface(s)"⟩ :: accounts ++
        [⟨.debug, "generated " ++ lib.declarations.length.repr ++ " declaration(s)"⟩] ∧
      (accounts.filter (·.level = .debug)).map LogEntry.message =
        (doc.filterMap Definition.declaredKind?).map ("emitting " ++ ·) ∧
      lib.declarations.map (fun d => d.header.map Header.kind) = (doc.filterMap Definition.declaredKind?).map some ∧
      run.log.countP (·.level = .warn) =
        doc.countP Definition.unsupported + (doc.missing (doc.flatMap Definition.implemented)).length +
          (doc.countP Definition.isSchema - 1) := by
  intro run accounts
  let c := Context.ofDocument ⟨marker, true, false⟩ doc
  have hrun : run = ⟨c.catalog.discovered :: c.trace false doc ++ [.generated (doc.filterMap c.declaration?).length],
      .ok ⟨doc.filterMap c.declaration?⟩⟩ := generate_lenient rfl doc
  have haccounts : (c.trace false doc).map Event.entry = accounts := by
    have htrace := Context.trace_account ⟨marker, true, false⟩ [] doc (List.nil_append doc).symm
    simpa only [List.any_nil, List.length_nil, Nat.zero_add] using htrace
  have hlog : run.log = c.catalog.discovered.entry :: accounts ++
      [(Event.generated (doc.filterMap c.declaration?).length).entry] := by
    rw [hrun, ← haccounts]
    simp [Logged.log]
  refine ⟨⟨doc.filterMap c.declaration?⟩, by rw [hrun], ?_, ?_, ?_, ?_⟩
  · have hdiscovered : c.catalog.discovered = _ := Catalog.discovered_ofDocument doc
    rw [hlog, hdiscovered]
    rfl
  · rw [← haccounts, List.filter_map, List.map_map]
    exact c.trace_emitting false doc
  · exact Context.kinds_declarations rfl doc
  · have hwarnings := Context.trace_warnings ⟨marker, true, false⟩ doc false doc
    rw [Bool.toNat_false, Nat.zero_add] at hwarnings
    rw [hlog, ← haccounts, ← hwarnings, List.cons_append, List.countP_cons, List.countP_append, List.countP_map]
    rfl

end SchemaDart
