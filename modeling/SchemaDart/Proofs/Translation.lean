import SchemaDart.Proofs.Parallel
import SchemaDart.Proofs.References

/-!
# Translating the names of types

A library is made in two steps that have nothing to do with each other.  `Document.verbatim` is the library with the
type names of the document at its type leaves, that is, inside the lists of the types of members and parameters and as
the types of root operations; `Library.rename` puts other names there and changes nothing else.  Every run renames the
verbatim library (`generate_eq_rename`), by a translation that `Document.Translation` describes.

The marker for scalars enters by the translation alone, so it reaches the references to scalars of the document and
nothing else (`marker_reaches_declared_scalars`).
-/

namespace SchemaDart

/-! ## Type leaves -/

def DartType.rename (f : String → String) : DartType → DartType
  | .named name => .named (f name)
  | .list element => .list (element.rename f)

def Parameter.rename (f : String → String) (p : Parameter) : Parameter := { p with type := p.type.rename f }

namespace Member

def rename (f : String → String) (m : Member) : Member :=
  { m with type := m.type.rename f, parameters := m.parameters.map (Parameter.rename f) }

/-- The names at the type leaves of a member and its parameters. -/
def typeNames (m : Member) : List String := m.type.elementName :: m.parameters.map (·.type.elementName)

end Member

namespace Declaration

/-- Puts other names at the type leaves. -/
def rename (f : String → String) : Declaration → Declaration
  | .ofClass c => .ofClass { c with members := c.members.map (Member.rename f) }
  | .ofEnum e => .ofEnum e
  | .ofSchema s => .ofSchema { s with rootOperations := s.rootOperations.map fun r => { r with type := f r.type } }

/-- The names at the type leaves. -/
def typeNames : Declaration → List String
  | .ofClass c => c.members.flatMap Member.typeNames
  | .ofEnum _ => []
  | .ofSchema s => s.rootOperations.map RootOperation.type

end Declaration

namespace Library

def rename (f : String → String) (l : Library) : Library := ⟨l.declarations.map (Declaration.rename f)⟩

/-- The names at the type leaves of all declarations. -/
def typeNames (l : Library) : List String := l.declarations.flatMap Declaration.typeNames

end Library

section TypeNames

variable (f : String → String)

theorem DartType.elementName_rename (t : DartType) : (t.rename f).elementName = f t.elementName := by
  induction t with
  | named name => rfl
  | list element ih => exact ih

theorem Member.typeNames_rename (m : Member) : (m.rename f).typeNames = m.typeNames.map f := by
  simp [Member.typeNames, Member.rename, Parameter.rename, DartType.elementName_rename, Function.comp_def]

theorem Declaration.typeNames_rename (d : Declaration) : (d.rename f).typeNames = d.typeNames.map f := by
  cases d with
  | ofClass c => simp [Declaration.typeNames, Declaration.rename, List.flatMap_map, List.map_flatMap,
      Member.typeNames_rename]
  | ofEnum e => rfl
  | ofSchema s => simp [Declaration.typeNames, Declaration.rename, Function.comp_def]

theorem Library.typeNames_rename (l : Library) : (l.rename f).typeNames = l.typeNames.map f := by
  simp [Library.typeNames, Library.rename, List.flatMap_map, List.map_flatMap, Declaration.typeNames_rename]

end TypeNames

/-! ## The verbatim library -/

def TypeRef.verbatim : TypeRef → DartType
  | .named name _ => .named name
  | .list element _ => .list element.verbatim

namespace InputValue

def verbatimParameter (v : InputValue) : Parameter :=
  ⟨v.name, v.type.verbatim, Deprecation.mark? v.directives⟩

def verbatimMember (v : InputValue) : Member :=
  ⟨v.name, v.type.verbatim, [], Deprecation.mark? v.directives⟩

end InputValue

def Field.verbatimMember (f : Field) : Member :=
  ⟨f.name, f.type.verbatim, f.arguments.map InputValue.verbatimParameter, Deprecation.mark? f.directives⟩

namespace Document

/-- What a definition of the document declares, with the type names of the document. -/
def verbatim? (doc : Document) (headers : Bool) (d : Definition) : Option Declaration :=
  let header : Option Header := if headers then some ⟨d.body.kind, d.lines⟩ else none
  match d.body with
  | .define (.object t) =>
    let own := t.fields.filter fun f => ¬ doc.Inherits t f.name
    some (.ofClass ⟨header, t.name, t.interfaces, own.map Field.verbatimMember⟩)
  | .define (.interface t) => some (.ofClass ⟨header, t.name, [], t.fields.map Field.verbatimMember⟩)
  | .define (.input name fields) => some (.ofClass ⟨header, name, [], fields.map InputValue.verbatimMember⟩)
  | .define (.enum name values) => some (.ofEnum ⟨header, name, values⟩)
  | .define (.union name members) => some (.ofEnum ⟨header, name, members⟩)
  | .define (.schema operations) =>
    some (.ofSchema ⟨header, operations.map fun o => ⟨o.1.keyword, o.2⟩⟩)
  | _ => none

/-- The library of the document with the type names of the document. -/
def verbatim (doc : Document) (headers : Bool) : Library := ⟨doc.filterMap (doc.verbatim? headers)⟩

end Document

theorem Naming.type_eq_rename (n : Naming) (t : TypeRef) : n.type t = t.verbatim.rename n.name := by
  induction t with
  | named name _ => rfl
  | list element _ ih => exact congrArg DartType.list ih

namespace Context

variable (c : Context)

theorem parameterFor_eq_rename (v : InputValue) : c.parameterFor v = v.verbatimParameter.rename c.naming.name := by
  unfold parameterFor
  rw [Naming.type_eq_rename]
  rfl

theorem memberFor_eq_rename (f : Field) : c.memberFor f = f.verbatimMember.rename c.naming.name := by
  have hparameters : f.arguments.map c.parameterFor =
      (f.arguments.map InputValue.verbatimParameter).map (Parameter.rename c.naming.name) := by
    rw [List.map_map]
    exact List.map_congr_left fun v _ => c.parameterFor_eq_rename v
  unfold memberFor
  rw [Naming.type_eq_rename, hparameters]
  rfl

theorem inputMemberFor_eq_rename (v : InputValue) : c.inputMemberFor v = v.verbatimMember.rename c.naming.name := by
  unfold inputMemberFor
  rw [Naming.type_eq_rename]
  rfl

theorem members_eq_rename (fields : List Field) :
    fields.map c.memberFor = (fields.map Field.verbatimMember).map (Member.rename c.naming.name) := by
  rw [List.map_map]
  exact List.map_congr_left fun f _ => c.memberFor_eq_rename f

/-- What a definition declares is what it declares verbatim, renamed. -/
theorem declaration?_eq_rename (config : Config) (doc : Document) (d : Definition) :
    let c := Context.ofDocument config doc
    c.declaration? d = (doc.verbatim? config.headers d).map (Declaration.rename c.naming.name) := by
  intro c
  obtain ⟨body, directives, lines⟩ := d
  cases body with
  | define system =>
    cases system with
    | object t =>
      have hown : t.fields.filter (·.name ∉ c.inherited t.interfaces) =
          t.fields.filter fun f => ¬ doc.Inherits t f.name :=
        List.filter_congr fun f _ => by rw [decide_eq_decide, Document.mem_inherited_iff]
      rw [declaration?_object rfl, hown, members_eq_rename]
      rfl
    | interface t =>
      rw [declaration?_interface rfl, members_eq_rename]
      rfl
    | input name fields =>
      have hmembers : fields.map c.inputMemberFor =
          (fields.map InputValue.verbatimMember).map (Member.rename c.naming.name) := by
        rw [List.map_map]
        exact List.map_congr_left fun v _ => c.inputMemberFor_eq_rename v
      rw [declaration?_input rfl, hmembers]
      rfl
    | schema operations =>
      rw [declaration?_schema rfl]
      refine congrArg (fun roots => some (Declaration.ofSchema ⟨_, roots⟩)) ?_
      rw [List.map_map]
      rfl
    | _ => rfl
  | _ => rfl

end Context

theorem verbatim_rename_declarations (config : Config) (doc : Document) :
    (⟨doc.filterMap (Context.ofDocument config doc).declaration?⟩ : Library) =
      (doc.verbatim config.headers).rename (Context.ofDocument config doc).naming.name := by
  unfold Document.verbatim Library.rename
  rw [List.map_filterMap]
  exact congrArg Library.mk (List.filterMap_congr fun d _ => Context.declaration?_eq_rename config doc d)

/-- A run that succeeds renames the verbatim library. -/
theorem generate_eq_rename {config : Config} {doc : Document} {lib : Library}
    (h : (generate config doc).result = .ok lib) :
    lib = (doc.verbatim config.headers).rename (Context.ofDocument config doc).naming.name := by
  rw [← verbatim_rename_declarations, ← generate_ok h]

/-! ## Translations -/

namespace BuiltinScalar

theorem mem_all (s : BuiltinScalar) : s ∈ all := by
  cases s <;> decide

theorem ofName?_graphqlName (s : BuiltinScalar) : ofName? s.graphqlName = some s := by
  cases s <;> decide

theorem ofName?_eq_none_iff {name : String} : ofName? name = none ↔ ∀ s : BuiltinScalar, s.graphqlName ≠ name := by
  unfold ofName?
  rw [List.find?_eq_none]
  constructor
  · intro h s
    simpa using h s s.mem_all
  · intro h s _
    simpa using h s

end BuiltinScalar

/-- What each type name of the document becomes, if `marker` stands for its scalars. -/
structure Document.Translation (doc : Document) (marker : String) (translate : String → String) : Prop where
  /-- A scalar of the document, also one that has the name of a built-in. -/
  scalar : ∀ name, doc.DefinesScalar name → translate name = marker
  builtin : ∀ s : BuiltinScalar, ¬ doc.DefinesScalar s.graphqlName → translate s.graphqlName = s.dartName
  other : ∀ name, ¬ doc.DefinesScalar name → (∀ s : BuiltinScalar, s.graphqlName ≠ name) → translate name = name

theorem Context.translation_naming (config : Config) (doc : Document) :
    doc.Translation config.marker (Context.ofDocument config doc).naming.name := by
  have hscalar : ∀ name, (Context.ofDocument config doc).naming.catalog.isScalar name = true ↔ doc.DefinesScalar name :=
    Catalog.isScalar_ofDocument doc
  refine ⟨fun name h => ?_, fun s h => ?_, fun name h hbuiltin => ?_⟩
  · unfold Naming.name
    rw [if_pos ((hscalar name).mpr h)]
    rfl
  · unfold Naming.name
    rw [if_neg fun hs => h ((hscalar _).mp hs), s.ofName?_graphqlName]
  · unfold Naming.name
    rw [if_neg fun hs => h ((hscalar _).mp hs), BuiltinScalar.ofName?_eq_none_iff.mpr hbuiltin]

namespace Document.Translation

variable {doc : Document} {marker marker' : String} {translate translate' : String → String}

/-- Names that are not those of scalars of the document are translated without the marker. -/
theorem eq_of_not_scalar (h : doc.Translation marker translate) (h' : doc.Translation marker' translate')
    {name : String} (hname : ¬ doc.DefinesScalar name) : translate name = translate' name := by
  by_cases hbuiltin : ∃ s : BuiltinScalar, s.graphqlName = name
  · obtain ⟨s, rfl⟩ := hbuiltin
    rw [h.builtin s hname, h'.builtin s hname]
  · have hother : ∀ s : BuiltinScalar, s.graphqlName ≠ name := fun s hs => hbuiltin ⟨s, hs⟩
    rw [h.other name hname hother, h'.other name hname hother]

/-- The name of a scalar of the document comes out only as the marker or for a built-in. -/
theorem builtin_of_scalar (h : doc.Translation marker translate) {name : String} (hmarker : translate name ≠ marker)
    (hscalar : doc.DefinesScalar (translate name)) :
    ∃ s : BuiltinScalar, s.dartName = translate name ∧ ¬ doc.DefinesScalar s.graphqlName := by
  have hname : ¬ doc.DefinesScalar name := fun hs => hmarker (h.scalar name hs)
  by_cases hbuiltin : ∃ s : BuiltinScalar, s.graphqlName = name
  · obtain ⟨s, rfl⟩ := hbuiltin
    exact ⟨s, (h.builtin s hname).symm, hname⟩
  · rw [h.other name hname fun s hs => hbuiltin ⟨s, hs⟩] at hscalar
    exact absurd hscalar hname

end Document.Translation

/-- **The marker reaches the references to scalars of the document, and nothing else.**  Two runs that differ in the
marker alone have the same log, and the same fault or two libraries that are the verbatim library under two
translations.  These give each scalar of the document the marker of the run and agree on all other names.  So the name
of a scalar of the document is at no type leaf, unless it is the marker or stands for a built-in. -/
theorem marker_reaches_declared_scalars (doc : Document) (headers strict : Bool) (marker marker' : String) :
    let run := generate ⟨marker, headers, strict⟩ doc
    let run' := generate ⟨marker', headers, strict⟩ doc
    run.events = run'.events ∧
    ((∃ fault, run.result = .error fault ∧ run'.result = .error fault) ∨
      ∃ translate translate', doc.Translation marker translate ∧ doc.Translation marker' translate' ∧
        (∀ name, ¬ doc.DefinesScalar name → translate name = translate' name) ∧
        run.result = .ok ((doc.verbatim headers).rename translate) ∧
        run'.result = .ok ((doc.verbatim headers).rename translate')) ∧
    ∀ lib, run.result = .ok lib → ∀ leaf ∈ lib.typeNames, leaf ≠ marker → doc.DefinesScalar leaf →
      ∃ s : BuiltinScalar, s.dartName = leaf ∧ ¬ doc.DefinesScalar s.graphqlName := by
  intro run run'
  have htranslation := Context.translation_naming ⟨marker, headers, strict⟩ doc
  have htranslation' := Context.translation_naming ⟨marker', headers, strict⟩ doc
  have hrun : run' = (fun _ => (doc.verbatim headers).rename _) <$> run :=
    generate_eq_map rfl rfl (Context.trace_config _ _ _ _ _)
      (verbatim_rename_declarations ⟨marker', headers, strict⟩ doc) rfl
  obtain ⟨hevents, houtcomes⟩ := Logged.outcomes_of_eq_map hrun
  refine ⟨hevents, ?_, ?_⟩
  · rcases houtcomes with hfault | ⟨lib, hlib, hlib'⟩
    · exact .inl hfault
    · rw [generate_eq_rename hlib] at hlib
      exact .inr ⟨_, _, htranslation, htranslation', fun _ => htranslation.eq_of_not_scalar htranslation', hlib, hlib'⟩
  · intro lib hlib leaf hleaf hmarker hscalar
    rw [generate_eq_rename hlib, Library.typeNames_rename] at hleaf
    obtain ⟨name, -, rfl⟩ := List.mem_map.mp hleaf
    exact htranslation.builtin_of_scalar hmarker hscalar

/-- Scalars that follow their uses and have the name of a built-in, or that a built-in has in Dart. -/
def shadowingScalars : Document :=
  [⟨.define (.object ⟨"Query", [],
      [⟨"tags", .list (.named "String" true) false, [], []⟩,
        ⟨"count", .named "Int" true,
          [⟨"since", .named "Date" true, none, []⟩, ⟨"of", .list (.named "ID" true) true, none, []⟩], []⟩]⟩), [], none⟩,
    ⟨.define (.schema [(.query, "Query"), (.mutation, "Date")]), [], none⟩,
    ⟨.define (.scalar "String"), [], none⟩, ⟨.define (.scalar "int"), [], none⟩, ⟨.define (.scalar "Date"), [], none⟩]

theorem shadowingScalars_translated :
    ∃ lib lib', (generate ⟨"Any", true, true⟩ shadowingScalars).result = .ok lib ∧
      (generate ⟨"Object", true, true⟩ shadowingScalars).result = .ok lib' ∧
      lib.typeNames = ["Any", "int", "Any", "String", "Query", "Any"] ∧
      lib'.typeNames = ["Object", "int", "Object", "String", "Query", "Object"] ∧
      ∀ leaf ∈ ["int", "String"], shadowingScalars.DefinesScalar leaf ∧
        ∃ s : BuiltinScalar, s.dartName = leaf ∧ ¬ shadowingScalars.DefinesScalar s.graphqlName := by
  have hrun : (generate ⟨"Any", true, true⟩ shadowingScalars).result = .ok _ := rfl
  have hrun' : (generate ⟨"Object", true, true⟩ shadowingScalars).result = .ok _ := rfl
  have hint : shadowingScalars.DefinesScalar "int" := ⟨_, .tail _ (.tail _ (.tail _ (.head _))), rfl⟩
  have hstring : shadowingScalars.DefinesScalar "String" := ⟨_, .tail _ (.tail _ (.head _)), rfl⟩
  obtain ⟨-, -, hleaf⟩ := marker_reaches_declared_scalars shadowingScalars true true "Any" "Object"
  refine ⟨_, _, hrun, hrun', by decide, by decide, ?_⟩
  simp only [List.forall_mem_cons]
  exact ⟨⟨hint, hleaf _ hrun "int" (by decide) (by decide) hint⟩,
    ⟨hstring, hleaf _ hrun "String" (by decide) (by decide) hstring⟩, fun _ h => nomatch h⟩

end SchemaDart
