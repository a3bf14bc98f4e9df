import Mathlib.Data.Nat.Find
import SchemaDart.Proofs.Strictness

/-!
# When and why a run fails

`Document.Offence` says, on the document alone, which definitions cannot be carried over to Dart in full, and why.
A lenient run never fails; a strict run fails exactly at the first offence (`generate_fails_at_first_offence`), and
no run fails on a number, since no number is ever read.

The run looks at one definition after the other with a flag for the schemas seen.  `Context.degradationAt?` says
what it meets at a position, and `trace_first_iff` that the first degradation of the run is the one at the first
position that has one.
-/

namespace SchemaDart

/-- The bodies without counterpart in Dart, each with its kind and its name. -/
inductive Body.Unsupported : Body → String → Option String → Prop
  | operation (kind : OperationKind) (name : Option String) :
    Unsupported (.operation kind name) "OperationDefinition" name
  | fragment (name condition : String) : Unsupported (.fragment name condition) "FragmentDefinition" (some name)
  | directive (name : String) (arguments : List InputValue) :
    Unsupported (.directive name arguments) "DirectiveDefinition" (some name)
  | schemaExtension (operations : List (OperationKind × String)) :
    Unsupported (.extend (.schema operations)) "SchemaExtension" none
  | scalarExtension (name : String) : Unsupported (.extend (.scalar name)) "ScalarTypeExtension" (some name)
  | objectExtension (t : CompositeType) : Unsupported (.extend (.object t)) "ObjectTypeExtension" (some t.name)
  | interfaceExtension (t : CompositeType) :
    Unsupported (.extend (.interface t)) "InterfaceTypeExtension" (some t.name)
  | unionExtension (name : String) (members : List String) :
    Unsupported (.extend (.union name members)) "UnionTypeExtension" (some name)
  | enumExtension (name : String) (values : List String) :
    Unsupported (.extend (.enum name values)) "EnumTypeExtension" (some name)
  | inputExtension (name : String) (fields : List InputValue) :
    Unsupported (.extend (.input name fields)) "InputObjectTypeExtension" (some name)

/-- The definition at position `i` offends, for the reason given. -/
inductive Document.Offence (doc : Document) (i : Nat) : Degradation → Prop
  /-- It has no counterpart in Dart. -/
  | unsupported {d : Definition} {kind : String} {name : Option String} (hd : doc[i]? = some d)
      (hb : d.body.Unsupported kind name) : Offence doc i (.unsupported kind name)
  /-- It is an object, and `name` is the first of the interfaces it implements that the document does not define. -/
  | unresolved {d : Definition} {t : CompositeType} {defined rest : List String} {name : String}
      (hd : doc[i]? = some d) (hb : d.body = .define (.object t)) (ht : t.interfaces = defined ++ name :: rest)
      (hdef : ∀ n ∈ defined, doc.DefinesInterface n) (hname : ¬ doc.DefinesInterface name) :
      Offence doc i (.unknownInterface t.name name)
  /-- It is a schema definition, and there is another before it. -/
  | repeated {d d' : Definition} {operations operations' : List (OperationKind × String)} {j : Nat}
      (hd : doc[i]? = some d) (hb : d.body = .define (.schema operations)) (hj : j < i)
      (hd' : doc[j]? = some d') (hb' : d'.body = .define (.schema operations')) : Offence doc i .repeatedSchema

theorem Body.unsupported_iff {b : Body} {kind : String} {name : Option String} :
    b.Unsupported kind name ↔ (∀ system, b ≠ .define system) ∧ kind = b.kind ∧ name = b.name? := by
  constructor
  · intro h
    cases h <;> exact ⟨fun _ h => (nomatch h), rfl, rfl⟩
  · rintro ⟨h, rfl, rfl⟩
    cases b with
    | define system => exact absurd rfl (h system)
    | extend system => cases system <;> constructor
    | _ => constructor

/-- Whether the definition has no counterpart in Dart. -/
def Definition.unsupported (d : Definition) : Bool :=
  match d.body with
  | .define _ => false
  | _ => true

theorem Definition.isSchema_iff {d : Definition} :
    d.isSchema = true ↔ ∃ operations, d.body = .define (.schema operations) := by
  unfold Definition.isSchema
  constructor
  · intro h
    split at h
    · next operations hb => exact ⟨operations, hb⟩
    · cases h
  · rintro ⟨operations, hb⟩
    rw [hb]

namespace Context

variable (c : Context)

/-- The first degradation that a run over the document meets at position `i`. -/
def degradationAt? (doc : Document) (i : Nat) : Option Degradation :=
  doc[i]?.bind fun d => (c.degradations ((doc.take i).any Definition.isSchema) d).head?

theorem trace_first_cons (repeated : Bool) (d : Definition) (ds : List Definition) :
    (c.trace repeated (d :: ds)).findSome? Event.degradation? =
      (c.degradations repeated d).head?.or
        ((c.trace (repeated || d.isSchema) ds).findSome? Event.degradation?) := by
  have hquiet : d.announcement.findSome? Event.degradation? = none := by
    unfold Definition.announcement
    split <;> rfl
  rw [trace, List.findSome?_append, List.findSome?_append, hquiet, Option.or_none]
  cases c.degradations repeated d <;> rfl

/-- A run from position `before.length` on first meets the degradation at the first position that has one. -/
theorem trace_first_iff (before ds : List Definition) (g : Degradation) :
    (c.trace (before.any Definition.isSchema) ds).findSome? Event.degradation? = some g ↔
      ∃ i, before.length ≤ i ∧ c.degradationAt? (before ++ ds) i = some g ∧
        ∀ j, before.length ≤ j → j < i → c.degradationAt? (before ++ ds) j = none := by
  induction ds generalizing before with
  | nil =>
    constructor
    · intro h; cases h
    · rintro ⟨i, hi, h, -⟩
      unfold degradationAt? at h
      rw [List.append_nil, List.getElem?_eq_none hi] at h
      cases h
  | cons d ds ih =>
    have hhere : c.degradationAt? (before ++ d :: ds) before.length =
        (c.degradations (before.any Definition.isSchema) d).head? := by
      unfold degradationAt?
      rw [List.getElem?_append_right (le_refl _), List.take_left, Nat.sub_self]
      rfl
    have hrest := ih (before ++ [d])
    rw [List.any_append, List.any_cons, List.any_nil, Bool.or_false, List.length_append, List.append_assoc] at hrest
    rw [trace_first_cons, ← hhere]
    cases h : c.degradationAt? (before ++ d :: ds) before.length with
    | none =>
      rw [Option.none_or, hrest]
      constructor
      · rintro ⟨i, hi, hg, hj⟩
        refine ⟨i, Nat.le_of_succ_le hi, hg, fun j h1 h2 => ?_⟩
        rcases Nat.eq_or_lt_of_le h1 with rfl | h1
        · exact h
        · exact hj j h1 h2
      · rintro ⟨i, hi, hg, hj⟩
        rcases Nat.eq_or_lt_of_le hi with rfl | hi
        · exact absurd (h.symm.trans hg) (fun h => nomatch h)
        · exact ⟨i, hi, hg, fun j h1 h2 => hj j (Nat.le_of_succ_le h1) h2⟩
    | some g' =>
      rw [Option.some_or]
      constructor
      · intro hg
        exact ⟨before.length, le_refl _, h.trans hg, fun j h1 h2 => absurd h2 (Nat.not_lt.mpr h1)⟩
      · rintro ⟨i, hi, hg, hj⟩
        -- a later position would have a degradation-free one before it
        rcases Nat.eq_or_lt_of_le hi with rfl | hi
        · exact h.symm.trans hg
        · rw [hj before.length (le_refl _) hi] at h
          cases h

variable {c}

theorem degradations_of_unsupported {d : Definition} {kind : String} {name : Option String}
    (hb : d.body.Unsupported kind name) (repeated : Bool) :
    c.degradations repeated d = [.unsupported kind name] := by
  unfold degradations
  cases hd : d.body with
  | define system =>
    rw [hd] at hb
    cases hb
  | _ =>
    rw [hd] at hb
    obtain ⟨-, rfl, rfl⟩ := Body.unsupported_iff.mp hb
    rfl

theorem degradations_of_object {d : Definition} {t : CompositeType} (hb : d.body = .define (.object t))
    (repeated : Bool) :
    c.degradations repeated d = (c.unresolved t.interfaces).map (.unknownInterface t.name) := by
  unfold degradations
  rw [hb]

theorem degradations_of_schema {d : Definition} {operations : List (OperationKind × String)}
    (hb : d.body = .define (.schema operations)) (repeated : Bool) :
    c.degradations repeated d = if repeated then [.repeatedSchema] else [] := by
  unfold degradations
  rw [hb]

theorem head?_unresolved_iff {names : List String} {name : String} :
    (c.unresolved names).head? = some name ↔ ∃ defined rest, names = defined ++ name :: rest ∧
      (∀ n ∈ defined, c.catalog.interface? n ≠ none) ∧ c.catalog.interface? name = none := by
  unfold unresolved
  rw [List.head?_filter, List.find?_eq_some_iff_append]
  constructor
  · rintro ⟨hname, defined, rest, rfl, hdef⟩
    refine ⟨defined, rest, rfl, fun n hn => ?_, by simpa using hname⟩
    have hsome : (c.catalog.interface? n).isSome := by simpa using hdef n hn
    exact Option.isSome_iff_ne_none.mp hsome
  · rintro ⟨defined, rest, rfl, hdef, hname⟩
    refine ⟨by simpa using hname, defined, rest, rfl, fun n hn => ?_⟩
    have hsome := Option.isSome_iff_ne_none.mpr (hdef n hn)
    simpa using hsome

end Context

/-! ## Offences -/

theorem Document.any_isSchema_take_iff {doc : Document} {i : Nat} :
    (doc.take i).any Definition.isSchema = true ↔
      ∃ j d operations, j < i ∧ doc[j]? = some d ∧ d.body = .define (.schema operations) := by
  rw [List.any_eq_true]
  constructor
  · rintro ⟨d, hd, hs⟩
    obtain ⟨j, hj⟩ := List.mem_iff_getElem?.mp hd
    obtain ⟨operations, hb⟩ := Definition.isSchema_iff.mp hs
    rw [List.getElem?_take] at hj
    split at hj
    · next hji => exact ⟨j, d, operations, hji, hj, hb⟩
    · cases hj
  · rintro ⟨j, d, operations, hj, hd, hb⟩
    have hget : (doc.take i)[j]? = some d := by rw [List.getElem?_take_of_lt hj, hd]
    exact ⟨d, List.mem_iff_getElem?.mpr ⟨j, hget⟩, Definition.isSchema_iff.mpr ⟨operations, hb⟩⟩

/-- What the run meets at a position is what offends there. -/
theorem Document.offence_iff (config : Config) {doc : Document} {i : Nat} {g : Degradation} :
    doc.Offence i g ↔ (Context.ofDocument config doc).degradationAt? doc i = some g := by
  have hnone : ∀ n, (Context.ofDocument config doc).catalog.interface? n = none ↔ ¬ doc.DefinesInterface n := by
    intro n
    show (Catalog.ofDocument doc).interface? n = none ↔ _
    rw [Catalog.interface?_ofDocument, Document.lastInterface?_eq_none_iff]
  unfold Context.degradationAt?
  rw [Option.bind_eq_some_iff]
  constructor
  · intro h
    cases h with
    | unsupported hd hb =>
      exact ⟨_, hd, by rw [Context.degradations_of_unsupported hb]; rfl⟩
    | unresolved hd hb ht hdef hname =>
      refine ⟨_, hd, ?_⟩
      have hfirst := Context.head?_unresolved_iff.mpr
        ⟨_, _, ht, fun n hn h => (hnone n).mp h (hdef n hn), (hnone _).mpr hname⟩
      rw [Context.degradations_of_object hb, List.head?_map, hfirst]
      rfl
    | repeated hd hb hj hd' hb' =>
      refine ⟨_, hd, ?_⟩
      rw [Context.degradations_of_schema hb, Document.any_isSchema_take_iff.mpr ⟨_, _, _, hj, hd', hb'⟩]
      rfl
  · rintro ⟨d, hd, h⟩
    have hother : (∀ system, d.body ≠ .define system) → doc.Offence i g := by
      intro hsys
      have hun := Body.unsupported_iff.mpr ⟨hsys, rfl, rfl⟩
      rw [Context.degradations_of_unsupported hun] at h
      cases h
      exact .unsupported hd hun
    cases hb : d.body with
    | define system =>
      cases system with
      | object t =>
        rw [Context.degradations_of_object hb, List.head?_map, Option.map_eq_some_iff] at h
        obtain ⟨name, hfirst, rfl⟩ := h
        obtain ⟨defined, rest, ht, hdef, hname⟩ := Context.head?_unresolved_iff.mp hfirst
        refine .unresolved hd hb ht (fun n hn => ?_) ((hnone name).mp hname)
        by_contra hn'
        exact hdef n hn ((hnone n).mpr hn')
      | schema operations =>
        rw [Context.degradations_of_schema hb] at h
        split at h
        · next hany =>
          obtain ⟨j, d', operations', hj, hd', hb'⟩ := Document.any_isSchema_take_iff.mp hany
          cases h
          exact .repeated hd hb hj hd' hb'
        · cases h
      | _ =>
        unfold Context.degradations at h
        rw [hb] at h
        cases h
    | _ => exact hother (fun _ h => by rw [hb] at h; cases h)

/-- The first degradation of a lenient run is the first offence of the document. -/
theorem generate_degradation?_iff {config : Config} (hc : config.strict = false) (doc : Document)
    (g : Degradation) :
    (generate config doc).degradation? = some g ↔
      ∃ i, doc.Offence i g ∧ ∀ j < i, ∀ g', ¬ doc.Offence j g' := by
  have htrace := (Context.ofDocument config doc).trace_first_iff [] doc g
  have hevents : (generate config doc).degradation? =
      ((Context.ofDocument config doc).trace false doc).findSome? Event.degradation? := by
    rw [generate_lenient hc]
    show (_ :: _ ++ [_]).findSome? _ = _
    rw [List.cons_append, List.findSome?_cons, List.findSome?_append]
    exact Option.or_none
  rw [hevents]
  refine htrace.trans ⟨?_, ?_⟩
  · rintro ⟨i, -, hg, hj⟩
    refine ⟨i, (Document.offence_iff config).mpr hg, fun j hji g' h' => ?_⟩
    have hsome := (Document.offence_iff config).mp h'
    exact absurd (hsome.symm.trans (hj j (Nat.zero_le j) hji)) (fun h => nomatch h)
  · rintro ⟨i, hg, hj⟩
    refine ⟨i, Nat.zero_le i, (Document.offence_iff config).mp hg, fun j _ hji => ?_⟩
    exact Option.eq_none_iff_forall_ne_some.mpr fun g' h' => hj j hji g' ((Document.offence_iff config).mpr h')

/-- A strict run fails with the first degradation of the lenient run. -/
theorem generate_error_iff (marker : String) (headers : Bool) (doc : Document) (fault : Fault) :
    (generate ⟨marker, headers, true⟩ doc).result = .error fault ↔
      ∃ g, fault = .degraded g ∧ (generate ⟨marker, headers, false⟩ doc).degradation? = some g := by
  rw [generate_strict]
  unfold Logged.cut
  cases h : (generate ⟨marker, headers, false⟩ doc).degradation? with
  | none =>
    rw [generate_lenient rfl]
    exact ⟨fun h => (nomatch h), fun ⟨_, _, h⟩ => (nomatch h)⟩
  | some g =>
    constructor
    · intro hf
      cases hf
      exact ⟨g, rfl, rfl⟩
    · rintro ⟨g', rfl, hg⟩
      cases hg
      rfl

/-- **The errors of a run.**  A lenient run never fails.  A strict run fails exactly if some definition offends, and
then with the offence of the first that does.  Neither ever fails on a number. -/
theorem generate_fails_at_first_offence (config : Config) (doc : Document) :
    (config.strict = false → ∃ lib, (generate config doc).result = .ok lib) ∧
    (config.strict = true →
      ((∃ fault, (generate config doc).result = .error fault) ↔ ∃ i g, doc.Offence i g) ∧
      (∀ fault, (generate config doc).result = .error fault ↔
        ∃ i g, fault = .degraded g ∧ doc.Offence i g ∧ ∀ j < i, ∀ g', ¬ doc.Offence j g')) ∧
    (∀ cause, (generate config doc).result ≠ .error (.invalidInt cause)) ∧
    (∀ cause, (generate config doc).result ≠ .error (.invalidFloat cause)) := by
  obtain ⟨marker, headers, strict⟩ := config
  cases strict with
  | false =>
    rw [generate_lenient rfl]
    exact ⟨fun _ => ⟨_, rfl⟩, fun h => (nomatch h), fun _ h => (nomatch h), fun _ h => (nomatch h)⟩
  | true =>
    have herror : ∀ fault, (generate ⟨marker, headers, true⟩ doc).result = .error fault ↔
        ∃ i g, fault = .degraded g ∧ doc.Offence i g ∧ ∀ j < i, ∀ g', ¬ doc.Offence j g' := by
      intro fault
      rw [generate_error_iff]
      constructor
      · rintro ⟨g, rfl, hg⟩
        obtain ⟨i, hi, hj⟩ := (generate_degradation?_iff rfl doc g).mp hg
        exact ⟨i, g, rfl, hi, hj⟩
      · rintro ⟨i, g, rfl, hi, hj⟩
        exact ⟨g, rfl, (generate_degradation?_iff rfl doc g).mpr ⟨i, hi, hj⟩⟩
    refine ⟨fun h => (nomatch h), fun _ => ⟨⟨?_, ?_⟩, herror⟩, fun cause h => ?_, fun cause h => ?_⟩
    · rintro ⟨fault, hf⟩
      obtain ⟨i, g, -, hi, -⟩ := (herror fault).mp hf
      exact ⟨i, g, hi⟩
    · -- of the positions that offend there is a first
      intro hex
      classical
      obtain ⟨g, hg⟩ := Nat.find_spec hex
      exact ⟨.degraded g, (herror _).mpr
        ⟨Nat.find hex, g, rfl, hg, fun j hj g' h' => Nat.find_min hex hj ⟨g', h'⟩⟩⟩
    · obtain ⟨-, g, hg, -⟩ := (herror _).mp h
      cases hg
    · obtain ⟨-, g, hg, -⟩ := (herror _).mp h
      cases hg

end SchemaDart
