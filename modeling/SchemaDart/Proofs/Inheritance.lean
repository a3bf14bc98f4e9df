import SchemaDart.Proofs.Strictness

/-!
# Fields taken over from interfaces

The class of an object leaves out exactly the fields that the interfaces it implements have, by the last definition
of each of them in the whole document; the class of an interface or of an input object leaves out none.  So no field
is lost: what an object leaves out is in the class of an interface that the object's class implements
(`inherited_fields_left_out_exactly`).

A library holds one declaration for each definition that declares something, in the same order.
`Document.emissions` pairs the two.
-/

namespace SchemaDart

/-- The definitions that declare something, each with its declaration in the library. -/
def Document.emissions (doc : Document) (lib : Library) : List (Definition × Declaration) :=
  (doc.filter Definition.declares).zip lib.declarations

/-- The last definition of some interface that the object implements has a field of this name. -/
def Document.Inherits (doc : Document) (object : CompositeType) (field : String) : Prop :=
  ∃ name ∈ object.interfaces, ∃ t, doc.lastInterface? name = some t ∧ field ∈ t.fieldNames

/-! ## The library of a run -/

/-- Whatever the mode, a run that succeeds declares what its definitions declare. -/
theorem generate_ok {config : Config} {doc : Document} {lib : Library}
    (h : (generate config doc).result = .ok lib) :
    lib.declarations = doc.filterMap (Context.ofDocument config doc).declaration? := by
  obtain ⟨marker, headers, strict⟩ := config
  cases strict with
  | false =>
    rw [generate_lenient rfl] at h
    rw [← Except.ok.inj h]
  | true =>
    rw [generate_strict] at h
    unfold Logged.cut at h
    split at h
    · cases h
    · rw [generate_lenient rfl] at h
      rw [← Except.ok.inj h]
      rfl

theorem zip_filter_filterMap {α β : Type} {f : α → Option β} {p : α → Bool} (hp : ∀ a, (f a).isSome = p a)
    (xs : List α) : (xs.filter p).zip (xs.filterMap f) = xs.filterMap fun a => (f a).map (a, ·) := by
  induction xs with
  | nil => rfl
  | cons a xs ih =>
    cases h : f a with
    | none =>
      have hneg : ¬ p a := by rw [← hp a, h]; exact Bool.false_ne_true
      rw [List.filter_cons_of_neg hneg, List.filterMap_cons_none h, ih, List.filterMap_cons, h]
      rfl
    | some b =>
      have hpos : p a := by rw [← hp a, h]; rfl
      rw [List.filter_cons_of_pos hpos, List.filterMap_cons_some h, List.zip_cons_cons, ih, List.filterMap_cons, h]
      rfl

section Emissions

variable {config : Config} {doc : Document} {lib : Library} (h : (generate config doc).result = .ok lib)
include h

theorem length_declarations : lib.declarations.length = (doc.filter Definition.declares).length := by
  rw [generate_ok h, List.length_filterMap_eq_countP, List.countP_eq_length_filter]
  simp only [Context.isSome_declaration?]

theorem mem_emissions_iff {d : Definition} {decl : Declaration} :
    (d, decl) ∈ doc.emissions lib ↔ d ∈ doc ∧ (Context.ofDocument config doc).declaration? d = some decl := by
  unfold Document.emissions
  rw [generate_ok h, zip_filter_filterMap (Context.isSome_declaration? _), List.mem_filterMap]
  constructor
  · rintro ⟨d', hd', hdecl⟩
    obtain ⟨decl', hdecl', heq⟩ := Option.map_eq_some_iff.mp hdecl
    cases heq
    exact ⟨hd', hdecl'⟩
  · rintro ⟨hd, hdecl⟩
    exact ⟨d, hd, by rw [hdecl]; rfl⟩

end Emissions

/-! ## Classes -/

namespace Context

variable {c : Context} {d : Definition}

theorem mem_inherited_iff {names : List String} {field : String} :
    field ∈ c.inherited names ↔ ∃ name ∈ names, ∃ t, c.catalog.interface? name = some t ∧ field ∈ t.fieldNames := by
  unfold inherited
  rw [List.mem_flatMap]
  refine exists_congr fun name => and_congr_right fun _ => ?_
  cases c.catalog.interface? name with
  | none => exact ⟨fun h => (nomatch h), fun ⟨_, h, _⟩ => (nomatch h)⟩
  | some t =>
    constructor
    · exact fun h => ⟨t, rfl, h⟩
    · rintro ⟨t', ht, h⟩
      cases ht
      exact h

theorem declaration?_object {t : CompositeType} (hb : d.body = .define (.object t)) :
    c.declaration? d = some (.ofClass ⟨c.header "ObjectTypeDefinition" d, t.name, t.interfaces,
      (t.fields.filter (·.name ∉ c.inherited t.interfaces)).map c.memberFor⟩) := by
  unfold declaration?
  rw [hb]

theorem declaration?_interface {t : CompositeType} (hb : d.body = .define (.interface t)) :
    c.declaration? d =
      some (.ofClass ⟨c.header "InterfaceTypeDefinition" d, t.name, [], t.fields.map c.memberFor⟩) := by
  unfold declaration?
  rw [hb]

theorem declaration?_input {name : String} {fields : List InputValue} (hb : d.body = .define (.input name fields)) :
    c.declaration? d =
      some (.ofClass ⟨c.header "InputObjectTypeDefinition" d, name, [], fields.map c.inputMemberFor⟩) := by
  unfold declaration?
  rw [hb]

theorem declaration?_schema {operations : List (OperationKind × String)}
    (hb : d.body = .define (.schema operations)) :
    c.declaration? d = some (.ofSchema ⟨c.header "SchemaDefinition" d,
      operations.map fun o => ⟨o.1.keyword, c.naming.name o.2⟩⟩) := by
  unfold declaration?
  rw [hb]

theorem names_memberFor (fields : List Field) :
    (fields.map c.memberFor).map Member.name = fields.map Field.name := by
  rw [List.map_map]
  rfl

end Context

instance (doc : Document) (object : CompositeType) (field : String) : Decidable (doc.Inherits object field) :=
  decidable_of_iff (∃ name ∈ object.interfaces, ∃ t ∈ doc.lastInterface? name, field ∈ t.fieldNames) Iff.rfl

theorem Document.mem_inherited_iff (config : Config) {doc : Document} {object : CompositeType} {field : String} :
    field ∈ (Context.ofDocument config doc).inherited object.interfaces ↔ doc.Inherits object field := by
  rw [Context.mem_inherited_iff]
  simp only [Document.Inherits, ← Catalog.interface?_ofDocument]
  rfl

/-- **Exclusion of inherited fields.**  In a run that succeeds, with a declaration for each definition that declares
something: the class of an object has the fields that it does not inherit, in order, and implements what the object
implements; every field of an object is in its class or in the class of an interface that its class implements; the
classes of interfaces and input objects have all their fields. -/
theorem inherited_fields_left_out_exactly {config : Config} {doc : Document} {lib : Library}
    (h : (generate config doc).result = .ok lib) :
    lib.declarations.length = (doc.filter Definition.declares).length ∧
    (∀ d decl object, (d, decl) ∈ doc.emissions lib → d.body = .define (.object object) →
      ∃ C, decl = .ofClass C ∧ C.name = object.name ∧
        C.members.map Member.name = object.fieldNames.filter (fun field => ¬ doc.Inherits object field) ∧
        C.interfaces = object.interfaces ∧
        ∀ field ∈ object.fieldNames, field ∈ C.members.map Member.name ∨
          ∃ d' t C', (d', .ofClass C') ∈ doc.emissions lib ∧ d'.body = .define (.interface t) ∧
            C'.name ∈ C.interfaces ∧ field ∈ C'.members.map Member.name) ∧
    (∀ d decl t, (d, decl) ∈ doc.emissions lib → d.body = .define (.interface t) →
      ∃ C, decl = .ofClass C ∧ C.name = t.name ∧ C.members.map Member.name = t.fieldNames ∧
        C.members = t.fields.map (Context.ofDocument config doc).memberFor) ∧
    (∀ d decl name fields, (d, decl) ∈ doc.emissions lib → d.body = .define (.input name fields) →
      ∃ C, decl = .ofClass C ∧ C.name = name ∧ C.members.map Member.name = fields.map InputValue.name ∧
        C.members = fields.map (Context.ofDocument config doc).inputMemberFor) := by
  refine ⟨length_declarations h, ?_, ?_, ?_⟩
  · intro d decl object hmem hb
    obtain ⟨hd, hdecl⟩ := (mem_emissions_iff h).mp hmem
    rw [Context.declaration?_object hb] at hdecl
    have hnames : ((object.fields.filter
          (·.name ∉ (Context.ofDocument config doc).inherited object.interfaces)).map
          (Context.ofDocument config doc).memberFor).map Member.name =
        object.fieldNames.filter (fun field => ¬ doc.Inherits object field) := by
      rw [Context.names_memberFor, CompositeType.fieldNames, List.filter_map]
      simp only [Document.mem_inherited_iff]
      rfl
    refine ⟨_, (Option.some.inj hdecl).symm, rfl, hnames, rfl, fun field hfield => ?_⟩
    by_cases hin : doc.Inherits object field
    · -- the last definition of the interface has a class of its own
      right
      obtain ⟨name, hname, t, ht, hft⟩ := hin
      obtain ⟨⟨d', hd', hb'⟩, rfl⟩ := Document.lastInterface?_eq_some ht
      refine ⟨d', t, _, (mem_emissions_iff h).mpr ⟨hd', Context.declaration?_interface hb'⟩, hb', hname, ?_⟩
      rw [Context.names_memberFor]
      exact hft
    · left
      rw [hnames]
      exact List.mem_filter.mpr ⟨hfield, by simpa using hin⟩
  · intro d decl t hmem hb
    obtain ⟨hd, hdecl⟩ := (mem_emissions_iff h).mp hmem
    rw [Context.declaration?_interface hb] at hdecl
    exact ⟨_, (Option.some.inj hdecl).symm, rfl, Context.names_memberFor t.fields, rfl⟩
  · intro d decl name fields hmem hb
    obtain ⟨hd, hdecl⟩ := (mem_emissions_iff h).mp hmem
    rw [Context.declaration?_input hb] at hdecl
    refine ⟨_, (Option.some.inj hdecl).symm, rfl, ?_, rfl⟩
    rw [List.map_map]
    rfl

/-- An object before its interfaces, of which `A` is defined twice and `C` not at all. -/
def lateInterfaces : Document :=
  let field (name : String) : Field := ⟨name, .named "Int" false, [], []⟩
  let define (system : TypeSystem) : Definition := ⟨.define system, [], none⟩
  [define (.object ⟨"O", ["A", "B", "C"], [field "x", field "a", field "b", field "x", field "a"]⟩),
    define (.interface ⟨"A", [], [field "x"]⟩),
    define (.interface ⟨"B", ["A"], [field "b"]⟩),
    define (.interface ⟨"A", [], [field "a"]⟩)]

theorem lateInterfaces_left_out :
    ∃ lib C, (generate .standard lateInterfaces).result = .ok lib ∧ .ofClass C ∈ lib.declarations.head? ∧
      C.members.map Member.name = ["x", "x"] ∧ C.interfaces = ["A", "B", "C"] := by
  have hrun : (generate .standard lateInterfaces).result = .ok _ := rfl
  obtain ⟨-, hobject, -⟩ := inherited_fields_left_out_exactly hrun
  obtain ⟨C, hC, -, hnames, hinterfaces, -⟩ := hobject _ _ _ List.mem_cons_self rfl
  exact ⟨_, C, hrun, by rw [← hC]; rfl, hnames.trans (by decide), hinterfaces⟩

end SchemaDart
