import Mathlib.Data.List.Basic
import SchemaDart.Proofs.Parallel
import SchemaDart.Proofs.Text.Library

/-!
# Headers

Whether declarations have headers is a matter of the configuration alone: without them a run is the run with them, and
its library has the same declarations with their headers taken off (`generate_without_headers`).  A header tells the
kind of the definition behind its declaration, and its lines (`headers_declarations`).  The kind is told in two places,
in headers and in the log, and is the same in both (`Context.header_of_declaration?`).
-/

namespace SchemaDart

/-- The declaration with its header taken off. -/
def Declaration.withoutHeader : Declaration → Declaration
  | .ofClass c => .ofClass { c with header := none }
  | .ofEnum e => .ofEnum { e with header := none }
  | .ofSchema s => .ofSchema { s with header := none }

def Library.withoutHeaders (l : Library) : Library := ⟨l.declarations.map Declaration.withoutHeader⟩

/-- The kind of a definition that declares something, as its header tells it. -/
def Definition.declaredKind? (d : Definition) : Option String :=
  match d.body with
  | .define (.object _) => some "ObjectTypeDefinition"
  | .define (.interface _) => some "InterfaceTypeDefinition"
  | .define (.input ..) => some "InputObjectTypeDefinition"
  | .define (.enum ..) => some "EnumTypeDefinition"
  | .define (.union ..) => some "UnionTypeDefinition"
  | .define (.schema _) => some "SchemaDefinition"
  | _ => none

/-- What the header of a declaration says of its definition. -/
def Definition.heading? (d : Definition) : Option Header := d.declaredKind?.map fun kind => ⟨kind, d.lines⟩

/-- The kinds in headers are those in the log. -/
theorem Definition.declaredKind?_eq (d : Definition) :
    d.declaredKind? = if d.declares then some d.body.kind else none := by
  obtain ⟨body, directives, lines⟩ := d
  cases body with
  | define system => cases system <;> rfl
  | _ => rfl

namespace Context

theorem header_declaration? (c : Context) (d : Definition) :
    (c.declaration? d).map Declaration.header = d.declaredKind?.map (c.header · d) := by
  obtain ⟨body, directives, lines⟩ := d
  cases body with
  | define system => cases system <;> rfl
  | _ => rfl

/-- **A header tells the kind that is logged.** -/
theorem header_of_declaration? {c : Context} {d : Definition} {decl : Declaration} (h : c.declaration? d = some decl) :
    decl.header = c.header d.body.kind d := by
  have hdeclares : d.declares = true := by
    rw [← c.isSome_declaration?, h]
    rfl
  have hheader := c.header_declaration? d
  rw [h, d.declaredKind?_eq, if_pos hdeclares] at hheader
  exact Option.some.inj hheader

theorem heading?_eq {c : Context} (hc : c.config.headers = true) (d : Definition) :
    (c.declaration? d).map Declaration.header = d.heading?.map some := by
  unfold Definition.heading?
  rw [header_declaration?, Option.map_map]
  refine congrArg (Option.map · d.declaredKind?) (funext fun kind => ?_)
  unfold header
  rw [hc]
  rfl

theorem headers_declarations {c : Context} (hc : c.config.headers = true) (ds : List Definition) :
    (ds.filterMap c.declaration?).map Declaration.header = (ds.filterMap Definition.heading?).map some := by
  rw [List.map_filterMap, List.map_filterMap]
  exact List.filterMap_congr fun d _ => heading?_eq hc d

theorem kinds_declarations {c : Context} (hc : c.config.headers = true) (ds : List Definition) :
    (ds.filterMap c.declaration?).map (fun d => d.header.map Header.kind) =
      (ds.filterMap Definition.declaredKind?).map some := by
  have hkind : ∀ d : Definition, d.heading?.map Header.kind = d.declaredKind? := by
    intro d
    unfold Definition.heading?
    cases d.declaredKind? <;> rfl
  calc (ds.filterMap c.declaration?).map (fun d => d.header.map Header.kind)
      = ((ds.filterMap c.declaration?).map Declaration.header).map (Option.map Header.kind) := by rw [List.map_map]; rfl
    _ = ((ds.filterMap Definition.heading?).map Header.kind).map some := by
      rw [headers_declarations hc, List.map_map, List.map_map]
      rfl
    _ = (ds.filterMap Definition.declaredKind?).map some := by
      rw [List.map_filterMap]
      exact congrArg (List.map some) (List.filterMap_congr fun d _ => hkind d)

theorem declaration?_without_header (marker : String) (strict : Bool) (catalog : Catalog) (d : Definition) :
    declaration? ⟨⟨marker, false, strict⟩, catalog⟩ d =
      (declaration? ⟨⟨marker, true, strict⟩, catalog⟩ d).map Declaration.withoutHeader := by
  obtain ⟨body, directives, lines⟩ := d
  cases body with
  | define system => cases system <;> rfl
  | _ => rfl

end Context

/-- The run without headers is the run with headers, which are then taken off. -/
theorem generate_without_headers (marker : String) (strict : Bool) (doc : Document) :
    generate ⟨marker, false, strict⟩ doc = Library.withoutHeaders <$> generate ⟨marker, true, strict⟩ doc := by
  refine generate_eq_map rfl rfl (Context.trace_config _ _ _ _ _) ?_ rfl
  unfold Library.withoutHeaders
  rw [List.map_filterMap]
  exact congrArg Library.mk (List.filterMap_congr fun d _ => Context.declaration?_without_header _ _ _ d)

end SchemaDart
