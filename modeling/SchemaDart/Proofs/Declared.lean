import SchemaDart.Generate
import SchemaDart.Proofs.Interfaces

/-!
# What a definition declares

A run threads faults and events through definitions, fields and arguments.  Here both are separated from what is
declared.

* No literal makes a run fail.  Only string arguments of `@deprecated` are decoded, and these always can be
  (`Deprecation.ofDirectives_eq`), so a member is a plain function of its field (`Context.member_eq`).
* A definition meets its degradations (`Context.degradations`) and then declares what it declares
  (`Context.declaration?`), in strict mode or not (`Context.declare_eq`).
* Unless it is strict, a run leaves the events of all its definitions and returns all their declarations
  (`Context.emitAll_lenient`).
-/

namespace SchemaDart

/-! ## Deprecation marks -/

/-- The text of a literal that is a string. -/
def Literal.string? : Literal → Option String
  | .string s => some s
  | _ => none

namespace Deprecation

theorem stringArguments_eq (arguments : List (String × Literal)) :
    stringArguments arguments = .ok (arguments.filterMap (·.2.string?)) := by
  induction arguments with
  | nil => rfl
  | cons a rest ih =>
    obtain ⟨key, v⟩ := a
    cases v with
    | string s =>
      show (do return [s] ++ (← stringArguments rest) : Except Fault (List String)) = _
      rw [ih]
      rfl
    | _ =>
      show stringArguments rest = _
      rw [ih]
      rfl

/-- The mark that a directive `@deprecated` sets. -/
def ofDirective (d : Directive) : Deprecation :=
  if d.arguments.isEmpty then .bare else .reasons (d.arguments.filterMap (·.2.string?))

/-- The mark that a list of directives sets. -/
def mark? (directives : List Directive) : Option Deprecation :=
  (directives.find? (·.name = "deprecated")).map ofDirective

theorem ofDirectives_eq (directives : List Directive) : ofDirectives directives = .ok (mark? directives) := by
  unfold ofDirectives mark?
  cases directives.find? (·.name = "deprecated") with
  | none => rfl
  | some d =>
    simp only [Option.map_some, ofDirective, stringArguments_eq]
    split <;> rfl

end Deprecation

/-- A definition that gives a declaration. -/
def Definition.declares (d : Definition) : Bool :=
  match d.body with
  | .define (.scalar _) => false
  | .define _ => true
  | _ => false

/-- What the log says of the declaration of a definition. -/
def Definition.announcement (d : Definition) : List Event :=
  if d.declares then [.emitting d.body.kind] else []

theorem Definition.eq_emitting_of_mem_announcement {d : Definition} {e : Event} (he : e ∈ d.announcement) :
    e = .emitting d.body.kind := by
  unfold announcement at he
  split at he
  · exact List.mem_singleton.mp he
  · cases he

namespace Context

variable (c : Context)

/-! ## Members -/

def parameterFor (v : InputValue) : Parameter :=
  ⟨v.name, c.naming.type v.type, Deprecation.mark? v.directives⟩

def memberFor (f : Field) : Member :=
  ⟨f.name, c.naming.type f.type, f.arguments.map c.parameterFor, Deprecation.mark? f.directives⟩

def inputMemberFor (v : InputValue) : Member :=
  ⟨v.name, c.naming.type v.type, [], Deprecation.mark? v.directives⟩

theorem parameter_eq : c.parameter = fun v => pure (c.parameterFor v) := by
  funext v
  unfold parameter
  rw [Deprecation.ofDirectives_eq]
  rfl

theorem member_eq : c.member = fun f => pure (c.memberFor f) := by
  funext f
  unfold member
  rw [Deprecation.ofDirectives_eq, parameter_eq, List.mapM_pure]
  rfl

theorem inputMember_eq : c.inputMember = fun v => pure (c.inputMemberFor v) := by
  funext v
  unfold inputMember
  rw [Deprecation.ofDirectives_eq]
  rfl

/-! ## Degradations -/

/-- Meets degradations one after the other. -/
def meet : List Degradation → Logged Unit
  | [] => return ()
  | g :: gs => do
    c.degrade g
    meet gs

/-- The names under which there is no interface. -/
def unresolved (names : List String) : List String :=
  names.filter fun name => (c.catalog.interface? name).isNone

/-- The names of the fields of all interfaces that are found. -/
def inherited (names : List String) : List String :=
  names.flatMap fun name => ((c.catalog.interface? name).map CompositeType.fieldNames).getD []

theorem inheritedNames_eq (object : String) (names : List String) :
    c.inheritedNames object names =
      c.meet ((c.unresolved names).map (.unknownInterface object)) >>= fun _ => pure (c.inherited names) := by
  induction names with
  | nil => rfl
  | cons name names ih =>
    cases h : c.catalog.interface? name with
    | none =>
      have hu : c.unresolved (name :: names) = name :: c.unresolved names := by simp [unresolved, h]
      have hi : c.inherited (name :: names) = c.inherited names := by simp [inherited, h]
      rw [hu, hi, List.map_cons, meet, bind_assoc, ← ih]
      simp only [inheritedNames, h]
    | some t =>
      have hu : c.unresolved (name :: names) = c.unresolved names := by simp [unresolved, h]
      have hi : c.inherited (name :: names) = t.fieldNames ++ c.inherited names := by simp [inherited, h]
      rw [hu, hi]
      simp only [inheritedNames, h]
      rw [ih, bind_assoc]
      simp only [pure_bind]

/-- What a definition declares. -/
def declaration? (d : Definition) : Option Declaration :=
  match d.body with
  | .define (.object t) =>
    let own := t.fields.filter (·.name ∉ c.inherited t.interfaces)
    some (.ofClass ⟨c.header "ObjectTypeDefinition" d, t.name, t.interfaces, own.map c.memberFor⟩)
  | .define (.interface t) =>
    some (.ofClass ⟨c.header "InterfaceTypeDefinition" d, t.name, [], t.fields.map c.memberFor⟩)
  | .define (.input name fields) =>
    some (.ofClass ⟨c.header "InputObjectTypeDefinition" d, name, [], fields.map c.inputMemberFor⟩)
  | .define (.enum name values) => some (.ofEnum ⟨c.header "EnumTypeDefinition" d, name, values⟩)
  | .define (.union name members) => some (.ofEnum ⟨c.header "UnionTypeDefinition" d, name, members⟩)
  | .define (.schema operations) =>
    let roots := operations.map fun (kind, type) => ⟨kind.keyword, c.naming.name type⟩
    some (.ofSchema ⟨c.header "SchemaDefinition" d, roots⟩)
  | _ => none

theorem isSome_declaration? (d : Definition) : (c.declaration? d).isSome = d.declares := by
  obtain ⟨body, directives, lines⟩ := d
  cases body with
  | define system => cases system <;> rfl
  | _ => rfl

/-- The degradations that a definition meets.  `repeated` says that a schema definition has come before it. -/
def degradations (repeated : Bool) (d : Definition) : List Degradation :=
  match d.body with
  | .define (.object t) => (c.unresolved t.interfaces).map (.unknownInterface t.name)
  | .define (.schema _) => if repeated then [.repeatedSchema] else []
  | .define _ => []
  | body => [.unsupported body.kind body.name?]

theorem declare_eq (repeated : Bool) (d : Definition) :
    c.declare repeated d = c.meet (c.degradations repeated d) >>= fun _ => pure (c.declaration? d) := by
  obtain ⟨body, directives, lines⟩ := d
  cases body with
  | define system =>
    cases system with
    | object t =>
      simp only [declare, degradations, declaration?, inheritedNames_eq, member_eq, List.mapM_pure, bind_assoc,
        pure_bind]
      rfl
    | interface t =>
      simp only [declare, member_eq, List.mapM_pure]
      rfl
    | input name fields =>
      simp only [declare, inputMember_eq, List.mapM_pure]
      rfl
    | schema operations =>
      cases repeated with
      | false => rfl
      | true =>
        show (c.degrade .repeatedSchema >>= fun _ => _) = (c.meet [.repeatedSchema] >>= fun _ => _)
        rw [meet, meet, bind_assoc]
        rfl
    | _ => rfl
  | _ =>
    show (c.degrade _ >>= fun _ => _) = (c.meet [_] >>= fun _ => _)
    rw [meet, meet, bind_assoc]
    rfl

/-- A definition meets its degradations, then is announced and declared. -/
theorem emit_eq (repeated : Bool) (d : Definition) :
    c.emit repeated d =
      c.meet (c.degradations repeated d) >>= fun _ => ⟨d.announcement, .ok (c.declaration? d)⟩ := by
  unfold emit Definition.announcement
  rw [declare_eq, bind_assoc]
  simp only [pure_bind, isSome_declaration?]
  cases d.declares <;> rfl

/-! ## Runs that go on -/

/-- The events of a sequence of definitions, the first of which has schema definitions before it if `repeated`. -/
def trace (repeated : Bool) : List Definition → List Event
  | [] => []
  | d :: ds => (c.degradations repeated d).map .degraded ++ d.announcement ++ trace (repeated || d.isSchema) ds

variable {c} (hc : c.config.strict = false)
include hc

theorem meet_lenient (gs : List Degradation) : c.meet gs = ⟨gs.map .degraded, .ok ()⟩ := by
  induction gs with
  | nil => rfl
  | cons g gs ih =>
    rw [meet, ih]
    unfold degrade
    rw [hc]
    rfl

theorem emitAll_lenient (repeated : Bool) (ds : List Definition) :
    c.emitAll repeated ds = ⟨c.trace repeated ds, .ok (ds.filterMap c.declaration?)⟩ := by
  induction ds generalizing repeated with
  | nil => rfl
  | cons d ds ih =>
    rw [emitAll, emit_eq, meet_lenient hc, ih]
    simp only [Logged.ok_bind, Logged.pure_eq, List.append_nil]
    cases h : c.declaration? d with
    | none => simp [trace, h]
    | some decl => simp [trace, h]

end Context

/-- The context of the run over a document. -/
def Context.ofDocument (config : Config) (doc : Document) : Context := ⟨config, Catalog.ofDocument doc⟩

theorem generate_eq (config : Config) (doc : Document) :
    generate config doc = (do
      .emit (Catalog.ofDocument doc).discovered
      let declarations ← (Context.ofDocument config doc).emitAll false doc
      .emit (.generated declarations.length)
      return ⟨declarations⟩) := rfl

theorem generate_lenient {config : Config} (hc : config.strict = false) (doc : Document) :
    let c := Context.ofDocument config doc
    let declarations := doc.filterMap c.declaration?
    generate config doc =
      ⟨c.catalog.discovered :: c.trace false doc ++ [.generated declarations.length], .ok ⟨declarations⟩⟩ := by
  intro c declarations
  rw [generate_eq, Context.emitAll_lenient hc]
  rfl

end SchemaDart
