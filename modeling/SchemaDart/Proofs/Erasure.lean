import SchemaDart.Proofs.Discovery
import SchemaDart.Proofs.Offences
import SchemaDart.Proofs.Parallel
import SchemaDart.Proofs.References

/-!
# What Dart cannot express

Much of a document has no counterpart in Dart: non-null markers, default values, directives other than
`@deprecated`, what an interface implements, and whole definitions.  `Definition.erase` leaves all of it out.  The
erased document gives the same library, or the same fault, with the same log; and without the definitions that have no
counterpart at all, a lenient run gives the same library (`inexpressible_never_matters`).

Erasure changes the catalog, since interfaces are erased too, but not what a declaration takes from it:
`Context.Erases` says how the catalogs differ, and from it each part of a declaration is shown to be the same.
-/

namespace SchemaDart

/-! ## Erasure -/

/-- The type without its non-null markers, at every depth. -/
def TypeRef.erase : TypeRef → TypeRef
  | .named name _ => .named name false
  | .list element _ => .list element.erase false

/-- A string stays; any other literal becomes null. -/
def Literal.erase : Literal → Literal
  | .string s => .string s
  | _ => .null

/-- The directive without the names of its arguments, and without those that are not strings. -/
def Directive.erase (d : Directive) : Directive := ⟨d.name, d.arguments.map fun a => ("", a.2.erase)⟩

/-- Of directives, only the first that is named `deprecated` is left. -/
def eraseDirectives (directives : List Directive) : List Directive :=
  (directives.find? (·.name = "deprecated")).toList.map Directive.erase

/-- The argument or input field without its default value. -/
def InputValue.erase (v : InputValue) : InputValue := ⟨v.name, v.type.erase, none, eraseDirectives v.directives⟩

def Field.erase (f : Field) : Field :=
  ⟨f.name, f.type.erase, f.arguments.map InputValue.erase, eraseDirectives f.directives⟩

namespace CompositeType

def eraseObject (t : CompositeType) : CompositeType := ⟨t.name, t.interfaces, t.fields.map Field.erase⟩

/-- An interface is left without what it implements. -/
def eraseInterface (t : CompositeType) : CompositeType := ⟨t.name, [], t.fields.map Field.erase⟩

end CompositeType

namespace TypeSystem

def erase : TypeSystem → TypeSystem
  | .schema operations => .schema operations
  | .scalar name => .scalar name
  | .object t => .object t.eraseObject
  | .interface t => .interface t.eraseInterface
  | .union name members => .union name members
  | .enum name values => .enum name values
  | .input name fields => .input name (fields.map InputValue.erase)

/-- Nothing but the kind and the name. -/
def hollow : TypeSystem → TypeSystem
  | .schema _ => .schema []
  | .scalar name => .scalar name
  | .object t => .object ⟨t.name, [], []⟩
  | .interface t => .interface ⟨t.name, [], []⟩
  | .union name _ => .union name []
  | .enum name _ => .enum name []
  | .input name _ => .input name []

end TypeSystem

/-- Definitions without counterpart are left with their kind and name only. -/
def Body.erase : Body → Body
  | .define system => .define system.erase
  | .extend system => .extend system.hollow
  | .directive name _ => .directive name []
  | .operation _ name => .operation .query name
  | .fragment name _ => .fragment name ""

/-- The definition without anything that Dart cannot express. -/
def Definition.erase (d : Definition) : Definition := ⟨d.body.erase, [], d.lines⟩

/-! ## Marks and types -/

theorem Literal.string?_erase (v : Literal) : v.erase.string? = v.string? := by
  cases v <;> rfl

namespace Deprecation

theorem ofDirective_erase (d : Directive) : ofDirective d.erase = ofDirective d := by
  have hstrings : (d.arguments.map fun a => ("", a.2.erase)).filterMap (·.2.string?) =
      d.arguments.filterMap (·.2.string?) := by
    rw [List.filterMap_map]
    exact List.filterMap_congr fun a _ => a.2.string?_erase
  unfold ofDirective Directive.erase
  rw [hstrings, List.isEmpty_map]

/-- Only the first directive named `deprecated` sets a mark, and only by its strings and the number of its arguments. -/
theorem mark?_erase (directives : List Directive) : mark? (eraseDirectives directives) = mark? directives := by
  unfold mark? eraseDirectives
  cases h : directives.find? (·.name = "deprecated") with
  | none => rfl
  | some d =>
    have hname : d.name = "deprecated" := by simpa using List.find?_some h
    have hfind : [d.erase].find? (·.name = "deprecated") = some d.erase := by
      simp [Directive.erase, hname]
    simp only [Option.toList_some, List.map_cons, List.map_nil, Option.map_some, hfind, ofDirective_erase]

end Deprecation

theorem CompositeType.fieldNames_eraseInterface (t : CompositeType) : t.eraseInterface.fieldNames = t.fieldNames := by
  unfold CompositeType.fieldNames CompositeType.eraseInterface
  rw [List.map_map]
  rfl

namespace Definition

variable (d : Definition)

theorem kind_erase : d.erase.body.kind = d.body.kind := by
  obtain ⟨body, directives, lines⟩ := d
  cases body with
  | define system => cases system <;> rfl
  | extend system => cases system <;> rfl
  | _ => rfl

theorem declares_erase : d.erase.declares = d.declares := by
  obtain ⟨body, directives, lines⟩ := d
  cases body with
  | define system => cases system <;> rfl
  | _ => rfl

theorem announcement_erase : d.erase.announcement = d.announcement := by
  unfold announcement
  rw [declares_erase, kind_erase]

theorem isSchema_erase : d.erase.isSchema = d.isSchema := by
  obtain ⟨body, directives, lines⟩ := d
  cases body with
  | define system => cases system <;> rfl
  | _ => rfl

theorem scalarName?_erase : d.erase.scalarName? = d.scalarName? := by
  obtain ⟨body, directives, lines⟩ := d
  cases body with
  | define system => cases system <;> rfl
  | _ => rfl

theorem interface?_erase : d.erase.interface? = d.interface?.map CompositeType.eraseInterface := by
  obtain ⟨body, directives, lines⟩ := d
  cases body with
  | define system => cases system <;> rfl
  | _ => rfl

end Definition

/-! ## Contexts -/

namespace Context

/-- The first context is the second with its interfaces erased. -/
structure Erases (c' c : Context) : Prop where
  config : c'.config = c.config
  scalars : c'.catalog.scalars = c.catalog.scalars
  interface : ∀ name, c'.catalog.interface? name = (c.catalog.interface? name).map CompositeType.eraseInterface

namespace Erases

variable {c c' : Context} (h : c'.Erases c)
include h

theorem name_eq (name : String) : c'.naming.name name = c.naming.name name := by
  refine Naming.name_congr (congrArg Config.marker h.config) ?_
  show decide (name ∈ c'.catalog.scalars) = decide (name ∈ c.catalog.scalars)
  rw [h.scalars]

theorem type_eq (t : TypeRef) : c'.naming.type t.erase = c.naming.type t := by
  induction t with
  | named name _ => exact congrArg DartType.named (h.name_eq name)
  | list element _ ih => exact congrArg DartType.list ih

theorem parameterFor_eq (v : InputValue) : c'.parameterFor v.erase = c.parameterFor v := by
  unfold parameterFor InputValue.erase
  simp only [h.type_eq, Deprecation.mark?_erase]

theorem memberFor_eq (f : Field) : c'.memberFor f.erase = c.memberFor f := by
  have hparameters : (f.arguments.map InputValue.erase).map c'.parameterFor = f.arguments.map c.parameterFor := by
    rw [List.map_map]
    exact List.map_congr_left fun v _ => h.parameterFor_eq v
  unfold memberFor Field.erase
  simp only [hparameters, h.type_eq, Deprecation.mark?_erase]

theorem inputMemberFor_eq (v : InputValue) : c'.inputMemberFor v.erase = c.inputMemberFor v := by
  unfold inputMemberFor InputValue.erase
  simp only [h.type_eq, Deprecation.mark?_erase]

theorem members_eq (fields : List Field) :
    (fields.map Field.erase).map c'.memberFor = fields.map c.memberFor := by
  rw [List.map_map]
  exact List.map_congr_left fun f _ => h.memberFor_eq f

theorem unresolved_eq (names : List String) : c'.unresolved names = c.unresolved names := by
  unfold unresolved
  simp only [h.interface, Option.isNone_map]

theorem inherited_eq (names : List String) : c'.inherited names = c.inherited names := by
  unfold inherited
  refine List.flatMap_congr fun name _ => ?_
  rw [h.interface, Option.map_map]
  cases c.catalog.interface? name with
  | none => rfl
  | some t => exact t.fieldNames_eraseInterface

/-- The fields that an object keeps are the erased ones of those that it had. -/
theorem own_eq (t : CompositeType) :
    t.eraseObject.fields.filter (·.name ∉ c'.inherited t.eraseObject.interfaces) =
      (t.fields.filter (·.name ∉ c.inherited t.interfaces)).map Field.erase := by
  show (t.fields.map Field.erase).filter (·.name ∉ c'.inherited t.interfaces) = _
  rw [List.filter_map, h.inherited_eq]
  rfl

theorem header_eq (kind : String) (d : Definition) : c'.header kind d.erase = c.header kind d := by
  unfold header
  rw [h.config]
  rfl

theorem declaration?_eq (d : Definition) : c'.declaration? d.erase = c.declaration? d := by
  have hheader := fun kind => h.header_eq kind d
  obtain ⟨body, directives, lines⟩ := d
  cases body with
  | define system =>
    cases system with
    | object t =>
      rw [declaration?_object rfl, declaration?_object rfl, hheader, h.own_eq, h.members_eq]
      rfl
    | interface t =>
      rw [declaration?_interface rfl, declaration?_interface rfl, hheader]
      show some (Declaration.ofClass ⟨_, t.name, [], (t.fields.map Field.erase).map c'.memberFor⟩) = _
      rw [h.members_eq]
    | input name fields =>
      have hmembers : (fields.map InputValue.erase).map c'.inputMemberFor = fields.map c.inputMemberFor := by
        rw [List.map_map]
        exact List.map_congr_left fun v _ => h.inputMemberFor_eq v
      rw [declaration?_input rfl, declaration?_input rfl, hheader, hmembers]
    | schema operations =>
      have hnames : c'.naming.name = c.naming.name := funext h.name_eq
      rw [declaration?_schema rfl, declaration?_schema rfl, hheader, hnames]
    | enum name values => exact congrArg (fun header => some (Declaration.ofEnum ⟨header, name, values⟩)) (hheader _)
    | union name members => exact congrArg (fun header => some (Declaration.ofEnum ⟨header, name, members⟩)) (hheader _)
    | scalar name => rfl
  | _ => rfl

theorem degradations_eq (repeated : Bool) (d : Definition) :
    c'.degradations repeated d.erase = c.degradations repeated d := by
  obtain ⟨body, directives, lines⟩ := d
  cases body with
  | define system =>
    cases system with
    | object t => exact congrArg (List.map _) (h.unresolved_eq t.interfaces)
    | _ => rfl
  | extend system => cases system <;> rfl
  | _ => rfl

end Erases
end Context

/-! ## Documents -/

namespace Document

theorem scalarNames_erase (doc : Document) : scalarNames (doc.map Definition.erase) = doc.scalarNames := by
  unfold scalarNames
  rw [List.filterMap_map]
  exact List.filterMap_congr fun d _ => d.scalarName?_erase

theorem interfaces_erase (doc : Document) :
    (doc.map Definition.erase).filterMap Definition.interface? =
      (doc.filterMap Definition.interface?).map CompositeType.eraseInterface := by
  rw [List.filterMap_map, List.map_filterMap]
  exact List.filterMap_congr fun d _ => d.interface?_erase

theorem interfaceNames_erase (doc : Document) :
    interfaceNames (doc.map Definition.erase) = doc.interfaceNames := by
  unfold interfaceNames
  rw [interfaces_erase, List.map_map]
  rfl

theorem lastInterface?_erase (doc : Document) (name : String) :
    lastInterface? (doc.map Definition.erase) name =
      (doc.lastInterface? name).map CompositeType.eraseInterface := by
  unfold lastInterface?
  rw [interfaces_erase, ← List.map_reverse, List.find?_map]
  rfl

end Document

theorem Context.erases_ofDocument (config : Config) (doc : Document) :
    (Context.ofDocument config (doc.map Definition.erase)).Erases (Context.ofDocument config doc) where
  config := rfl
  scalars := by
    show (Catalog.ofDocument _).scalars = (Catalog.ofDocument doc).scalars
    rw [Catalog.scalars_ofDocument, Catalog.scalars_ofDocument, Document.scalarNames_erase]
  interface name := by
    show (Catalog.ofDocument _).interface? name = ((Catalog.ofDocument doc).interface? name).map _
    rw [Catalog.interface?_ofDocument, Catalog.interface?_ofDocument, Document.lastInterface?_erase]

/-- A run over an erased document is the run over the document. -/
theorem generate_erase (config : Config) (doc : Document) :
    generate config (doc.map Definition.erase) = generate config doc := by
  have herases := Context.erases_ofDocument config doc
  have hdiscovered : (Catalog.ofDocument (doc.map Definition.erase)).discovered =
      (Catalog.ofDocument doc).discovered := by
    rw [Catalog.discovered_ofDocument, Catalog.discovered_ofDocument, Document.scalarNames_erase,
      Document.interfaceNames_erase]
  have htrace := Context.trace_map _ _ Definition.erase herases.degradations_eq Definition.announcement_erase
    Definition.isSchema_erase false doc
  have hdeclarations : (doc.map Definition.erase).filterMap
      (Context.ofDocument config (doc.map Definition.erase)).declaration? =
        doc.filterMap (Context.ofDocument config doc).declaration? := by
    rw [List.filterMap_map]
    exact List.filterMap_congr fun d _ => herases.declaration?_eq d
  have hdeclares : (doc.map Definition.erase).countP Definition.declares = doc.countP Definition.declares := by
    rw [List.countP_map]
    exact List.countP_congr fun d _ => by rw [Function.comp_apply, d.declares_erase]
  rw [generate_eq_map (g := id) rfl hdiscovered htrace (congrArg Library.mk hdeclarations) hdeclares, id_map]

/-! ## Definitions without counterpart -/

/-- Whether the event tells that a definition is skipped. -/
def Event.skips : Event → Bool
  | .degraded (.unsupported ..) => true
  | _ => false

section Unsupported

variable {d : Definition} (hd : d.unsupported = true)
include hd

theorem Definition.isSchema_of_unsupported : d.isSchema = false := by
  obtain ⟨body, directives, lines⟩ := d
  cases body with
  | define system => cases hd
  | _ => rfl

theorem Context.declaration?_of_unsupported (c : Context) : c.declaration? d = none := by
  obtain ⟨body, directives, lines⟩ := d
  cases body with
  | define system => cases hd
  | _ => rfl

/-- The catalog takes no notice of extensions. -/
theorem Catalog.add_of_unsupported (c : Catalog) : c.add d = c := by
  obtain ⟨body, directives, lines⟩ := d
  cases body with
  | define system => cases hd
  | _ => rfl

end Unsupported

namespace Context

variable (c : Context)

theorem skips_degradation {repeated : Bool} {d : Definition} {g : Degradation}
    (hg : g ∈ c.degradations repeated d) : (Event.degraded g).skips = d.unsupported := by
  obtain ⟨body, directives, lines⟩ := d
  cases body with
  | define system =>
    cases system with
    | object t =>
      obtain ⟨name, -, rfl⟩ := List.mem_map.mp hg
      rfl
    | schema operations =>
      cases repeated with
      | false => cases hg
      | true =>
        rw [List.mem_singleton.mp hg]
        rfl
    | _ => cases hg
  | _ =>
    rw [List.mem_singleton.mp hg]
    rfl

/-- A definition without counterpart is reported as skipped, and of others no event tells that. -/
theorem filter_step (repeated : Bool) (d : Definition) :
    ((c.degradations repeated d).map Event.degraded ++ d.announcement).filter (fun e => !e.skips) =
      if d.unsupported then [] else (c.degradations repeated d).map Event.degraded ++ d.announcement := by
  have hannouncement : ∀ e ∈ d.announcement, e.skips = false := by
    intro e he
    rw [Definition.eq_emitting_of_mem_announcement he]
    rfl
  cases hd : d.unsupported with
  | true =>
    have hnone : d.announcement = [] := by
      have hdeclares := c.isSome_declaration? d
      rw [declaration?_of_unsupported hd] at hdeclares
      unfold Definition.announcement
      rw [← hdeclares]
      rfl
    rw [if_pos rfl, hnone, List.append_nil, List.filter_eq_nil_iff, List.forall_mem_map]
    intro g hg
    simp [c.skips_degradation hg, hd]
  | false =>
    rw [if_neg Bool.false_ne_true, List.filter_eq_self, List.forall_mem_append, List.forall_mem_map]
    refine ⟨fun g hg => ?_, fun e he => ?_⟩
    · simp [c.skips_degradation hg, hd]
    · simp [hannouncement e he]

theorem trace_filter (repeated : Bool) (ds : List Definition) :
    c.trace repeated (ds.filter fun d => !d.unsupported) = (c.trace repeated ds).filter fun e => !e.skips := by
  induction ds generalizing repeated with
  | nil => rfl
  | cons d ds ih =>
    rw [trace, List.filter_append, filter_step, ← ih]
    cases hd : d.unsupported with
    | true =>
      rw [List.filter_cons_of_neg (by simp [hd]), if_pos rfl, Definition.isSchema_of_unsupported hd, Bool.or_false,
        List.nil_append]
    | false => rw [List.filter_cons_of_pos (by simp [hd]), if_neg Bool.false_ne_true, trace]

end Context

theorem Catalog.ofDocument_filter (doc : Document) :
    ofDocument (doc.filter fun d => !d.unsupported) = ofDocument doc := by
  unfold ofDocument
  rw [List.foldl_filter]
  congr 1
  funext c d
  cases hd : d.unsupported with
  | true => rw [Catalog.add_of_unsupported hd]; rfl
  | false => rfl

/-- Without the definitions that have no counterpart, a lenient run gives the same library, and its log says nothing
of them. -/
theorem generate_filter {config : Config} (hc : config.strict = false) (doc : Document) :
    generate config (doc.filter fun d => !d.unsupported) =
      ⟨(generate config doc).events.filter fun e => !e.skips, (generate config doc).result⟩ := by
  have hcontext : Context.ofDocument config (doc.filter fun d => !d.unsupported) = Context.ofDocument config doc := by
    unfold Context.ofDocument
    rw [Catalog.ofDocument_filter]
  have hdeclarations : (doc.filter fun d => !d.unsupported).filterMap (Context.ofDocument config doc).declaration? =
      doc.filterMap (Context.ofDocument config doc).declaration? := by
    rw [List.filterMap_filter]
    refine List.filterMap_congr fun d _ => ?_
    cases hd : d.unsupported with
    | true => rw [Context.declaration?_of_unsupported hd]; rfl
    | false => rfl
  rw [generate_lenient hc, generate_lenient hc, hcontext, hdeclarations, Context.trace_filter]
  simp only [List.cons_append, List.filter_cons, List.filter_append]
  rfl

/-- **What Dart cannot express never matters.**  Without it, a run gives the same library or the same fault, and the
same log.  Without the definitions that have no counterpart in Dart, a lenient run gives the same library, and its log
lacks the warnings that they are skipped. -/
theorem inexpressible_never_matters (config : Config) (doc : Document) :
    generate config (doc.map Definition.erase) = generate config doc ∧
    let lenient : Config := { config with strict := false }
    (generate lenient (doc.filter fun d => !d.unsupported)).result = (generate lenient doc).result ∧
    (generate lenient (doc.filter fun d => !d.unsupported)).events =
      (generate lenient doc).events.filter fun e => !e.skips := by
  refine ⟨generate_erase config doc, ?_⟩
  intro lenient
  have hrun : generate lenient (doc.filter fun d => !d.unsupported) = _ := generate_filter rfl doc
  rw [hrun]
  exact ⟨rfl, rfl⟩

end SchemaDart
