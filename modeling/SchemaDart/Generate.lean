import SchemaDart.Dart.Declaration
import SchemaDart.Event
import SchemaDart.Naming

/-!
# Generating declarations

Each definition of a document gives at most one declaration, in document order: objects, interfaces and input
objects give classes, enums and unions give enums, and a schema gives the class of root operations.  Fields that
an object takes over from its interfaces are left to the classes of those.

Three things cannot be carried over in full: a definition without counterpart in Dart, an interface that is not
defined, and a second schema.  Each is a degradation: in strict mode it ends the run with a fault, otherwise it is
logged and the run goes on.
-/

namespace SchemaDart

/-- What the run is to do. -/
structure Config where
  /-- The Dart name that stands for every scalar of the document. -/
  marker : String
  /-- Whether declarations have headers. -/
  headers : Bool
  /-- Whether a degradation ends the run. -/
  strict : Bool

/-- The usual configuration. -/
def Config.standard : Config := ⟨"dynamic", true, false⟩

/-- The configuration of a run together with the catalog of the document. -/
structure Context where
  config : Config
  catalog : Catalog

namespace Context

def naming (c : Context) : Naming := ⟨c.catalog, c.config.marker⟩

/-- Meets a degradation: a fault in strict mode, otherwise a warning. -/
def degrade (c : Context) (d : Degradation) : Logged Unit :=
  if c.config.strict then .ofExcept (.error (.degraded d)) else .emit (.degraded d)

/-- The header of what is declared for a definition of the kind given. -/
def header (c : Context) (kind : String) (d : Definition) : Option Header :=
  if c.config.headers then some ⟨kind, d.lines⟩ else none

/-- The parameter for an argument of a field. -/
def parameter (c : Context) (v : InputValue) : Except Fault Parameter := do
  let deprecation ← Deprecation.ofDirectives v.directives
  return { name := v.name, type := c.naming.type v.type, deprecation }

/-- The member for a field. -/
def member (c : Context) (f : Field) : Except Fault Member := do
  let deprecation ← Deprecation.ofDirectives f.directives
  let parameters ← f.arguments.mapM c.parameter
  return { name := f.name, type := c.naming.type f.type, parameters, deprecation }

/-- The member for a field of an input object. -/
def inputMember (c : Context) (v : InputValue) : Except Fault Member := do
  let deprecation ← Deprecation.ofDirectives v.directives
  return { name := v.name, type := c.naming.type v.type, parameters := [], deprecation }

/-- The names of the fields that an object takes over from the interfaces named.  A name that is not defined is a
degradation, and nothing is taken over from it. -/
def inheritedNames (c : Context) (object : String) : List String → Logged (List String)
  | [] => return []
  | name :: names =>
    match c.catalog.interface? name with
    | some type => return type.fieldNames ++ (← inheritedNames c object names)
    | none => do
      c.degrade (.unknownInterface object name)
      inheritedNames c object names

/-- What a definition declares.  `repeated` says that a schema definition has come before it. -/
def declare (c : Context) (repeated : Bool) (d : Definition) : Logged (Option Declaration) :=
  match d.body with
  | .define (.object type) => do
    let inherited ← c.inheritedNames type.name type.interfaces
    let own := type.fields.filter (·.name ∉ inherited)
    let members ← .ofExcept (own.mapM c.member)
    return some (.ofClass ⟨c.header "ObjectTypeDefinition" d, type.name, type.interfaces, members⟩)
  | .define (.interface type) => do
    let members ← .ofExcept (type.fields.mapM c.member)
    return some (.ofClass ⟨c.header "InterfaceTypeDefinition" d, type.name, [], members⟩)
  | .define (.input name fields) => do
    let members ← .ofExcept (fields.mapM c.inputMember)
    return some (.ofClass ⟨c.header "InputObjectTypeDefinition" d, name, [], members⟩)
  | .define (.enum name values) => return some (.ofEnum ⟨c.header "EnumTypeDefinition" d, name, values⟩)
  | .define (.union name members) => return some (.ofEnum ⟨c.header "UnionTypeDefinition" d, name, members⟩)
  | .define (.schema operations) => do
    if repeated then c.degrade .repeatedSchema
    let roots := operations.map fun (kind, type) => ⟨kind.keyword, c.naming.name type⟩
    return some (.ofSchema ⟨c.header "SchemaDefinition" d, roots⟩)
  | .define (.scalar _) => return none
  | body => do
    c.degrade (.unsupported body.kind body.name?)
    return none

/-- Declares what a definition declares, and logs that. -/
def emit (c : Context) (repeated : Bool) (d : Definition) : Logged (Option Declaration) := do
  let declaration? ← c.declare repeated d
  if declaration?.isSome then .emit (.emitting d.body.kind)
  return declaration?

end Context

/-- Whether the definition is that of a schema. -/
def Definition.isSchema (d : Definition) : Bool :=
  match d.body with
  | .define (.schema _) => true
  | _ => false

/-- The declarations of a sequence of definitions, the first of which has schema definitions before it if
`repeated`. -/
def Context.emitAll (c : Context) (repeated : Bool) : List Definition → Logged (List Declaration)
  | [] => return []
  | d :: ds => do
    let declaration? ← c.emit repeated d
    return declaration?.toList ++ (← c.emitAll (repeated || d.isSchema) ds)

/-- The event that tells the size of a catalog. -/
def Catalog.discovered (c : Catalog) : Event := .discovered c.scalars.length c.interfaces.length

/-- Generates the Dart library for a document. -/
def generate (config : Config) (doc : Document) : Logged Library := do
  let catalog := Catalog.ofDocument doc
  .emit catalog.discovered
  let declarations ← Context.emitAll ⟨config, catalog⟩ false doc
  .emit (.generated declarations.length)
  return ⟨declarations⟩

end SchemaDart
