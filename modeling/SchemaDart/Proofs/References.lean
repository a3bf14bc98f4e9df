import Mathlib.Data.List.Basic
import SchemaDart.Proofs.Inheritance

/-!
# What a declaration depends on

A definition is declared with the whole document in view, but it looks at little of it: whether the names that its
types refer to are those of scalars, and, if it is an object, what the interfaces are that it implements.  Contexts
that agree on these (`Context.Agree`) give the same declaration (`Context.Agree.declaration?_eq`).

Of the scalars, too, it is said without the catalog what the catalog finds (`Catalog.isScalar_ofDocument`).
-/

namespace SchemaDart

/-! ## Scalars of a document -/

/-- Some definition of the document is that of a scalar of this name. -/
def Document.DefinesScalar (doc : Document) (name : String) : Prop :=
  ∃ d ∈ doc, d.body = .define (.scalar name)

namespace Catalog

theorem isScalar_add (c : Catalog) (d : Definition) (name : String) :
    (c.add d).isScalar name = true ↔ d.body = .define (.scalar name) ∨ c.isScalar name = true := by
  obtain ⟨body, directives, lines⟩ := d
  cases body with
  | define system =>
    cases system with
    | scalar n =>
      show Catalog.isScalar (if n ∈ c.scalars then c else { c with scalars := c.scalars ++ [n] }) name = true ↔ _
      by_cases hn : n ∈ c.scalars
      · rw [if_pos hn]
        constructor
        · exact Or.inr
        · rintro (h | h)
          · cases h
            simpa [isScalar] using hn
          · exact h
      · rw [if_neg hn]
        simp only [isScalar, List.mem_append, List.mem_singleton, decide_eq_true_eq, Body.define.injEq,
          TypeSystem.scalar.injEq]
        rw [or_comm, eq_comm]
    | _ => exact ⟨Or.inr, fun h => h.resolve_left (fun h => nomatch h)⟩
  | _ => exact ⟨Or.inr, fun h => h.resolve_left (fun h => nomatch h)⟩

theorem isScalar_foldl (ds : List Definition) (c : Catalog) (name : String) :
    (ds.foldl add c).isScalar name = true ↔ Document.DefinesScalar ds name ∨ c.isScalar name = true := by
  induction ds generalizing c with
  | nil => simp [Document.DefinesScalar]
  | cons d ds ih =>
    rw [List.foldl_cons, ih, isScalar_add, ← or_assoc]
    simp only [Document.DefinesScalar, List.mem_cons, exists_eq_or_imp, or_comm]

/-- The catalog of a document knows the scalars that the document defines. -/
theorem isScalar_ofDocument (doc : Document) (name : String) :
    (ofDocument doc).isScalar name = true ↔ doc.DefinesScalar name := by
  unfold ofDocument
  rw [isScalar_foldl]
  exact or_iff_left (fun h => nomatch h)

end Catalog

/-! ## References -/

/-- The name inside all lists. -/
def TypeRef.elementName : TypeRef → String
  | .named name _ => name
  | .list element _ => element.elementName

/-- The names that the type of a field and those of its arguments refer to. -/
def Field.references (f : Field) : List String :=
  f.type.elementName :: f.arguments.map (·.type.elementName)

/-- The names that the types in a definition refer to: types of fields and of their arguments, types of input
fields, and types of root operations. -/
def Definition.references (d : Definition) : List String :=
  match d.body with
  | .define (.object t) => t.fields.flatMap Field.references
  | .define (.interface t) => t.fields.flatMap Field.references
  | .define (.input _ fields) => fields.map (·.type.elementName)
  | .define (.schema operations) => operations.map Prod.snd
  | _ => []

/-- The names of the interfaces that a definition implements, if it is that of an object. -/
def Definition.implemented (d : Definition) : List String :=
  match d.body with
  | .define (.object t) => t.interfaces
  | _ => []

namespace Naming

variable {n n' : Naming}

theorem name_congr (hmarker : n.marker = n'.marker) {name : String}
    (h : n.catalog.isScalar name = n'.catalog.isScalar name) : n.name name = n'.name name := by
  unfold Naming.name
  rw [h, hmarker]

/-- At every depth of lists the type depends on the name inside them only. -/
theorem type_congr (hmarker : n.marker = n'.marker) {t : TypeRef}
    (h : n.catalog.isScalar t.elementName = n'.catalog.isScalar t.elementName) : n.type t = n'.type t := by
  induction t with
  | named name _ =>
    have hname : n.name name = n'.name name := name_congr hmarker h
    show DartType.named (n.name name) = DartType.named (n'.name name)
    rw [hname]
  | list element _ ih =>
    show DartType.list (n.type element) = DartType.list (n'.type element)
    rw [ih h]

end Naming

namespace Context

/-- Two contexts tell the same of everything that the definition refers to. -/
structure Agree (c c' : Context) (d : Definition) : Prop where
  config : c.config = c'.config
  scalar : ∀ name ∈ d.references, c.catalog.isScalar name = c'.catalog.isScalar name
  interface : ∀ name ∈ d.implemented, c.catalog.interface? name = c'.catalog.interface? name

namespace Agree

variable {c c' : Context} {d : Definition}

theorem header_eq (h : c.Agree c' d) (kind : String) : c.header kind d = c'.header kind d := by
  unfold header
  rw [h.config]

theorem type_eq (h : c.Agree c' d) {t : TypeRef} (ht : t.elementName ∈ d.references) :
    c.naming.type t = c'.naming.type t :=
  Naming.type_congr (congrArg Config.marker h.config) (h.scalar _ ht)

theorem memberFor_eq (h : c.Agree c' d) {f : Field} (hf : ∀ name ∈ f.references, name ∈ d.references) :
    c.memberFor f = c'.memberFor f := by
  have hparameters : f.arguments.map c.parameterFor = f.arguments.map c'.parameterFor := by
    refine List.map_congr_left fun v hv => ?_
    unfold parameterFor
    rw [h.type_eq (hf _ (List.mem_cons_of_mem _ (List.mem_map_of_mem hv)))]
  unfold memberFor
  rw [hparameters, h.type_eq (hf _ List.mem_cons_self)]

theorem inputMemberFor_eq (h : c.Agree c' d) {v : InputValue} (hv : v.type.elementName ∈ d.references) :
    c.inputMemberFor v = c'.inputMemberFor v := by
  unfold inputMemberFor
  rw [h.type_eq hv]

theorem unresolved_eq (h : c.Agree c' d) : c.unresolved d.implemented = c'.unresolved d.implemented := by
  unfold unresolved
  exact List.filter_congr fun name hname => by rw [h.interface name hname]

theorem inherited_eq (h : c.Agree c' d) : c.inherited d.implemented = c'.inherited d.implemented := by
  unfold inherited
  exact List.flatMap_congr fun name hname => by rw [h.interface name hname]

theorem members_eq (h : c.Agree c' d) {t : CompositeType}
    (hb : d.body = .define (.object t) ∨ d.body = .define (.interface t)) :
    ∀ f ∈ t.fields, c.memberFor f = c'.memberFor f := by
  intro f hf
  refine h.memberFor_eq fun name hname => ?_
  unfold Definition.references
  rcases hb with hb | hb <;> rw [hb] <;> exact List.mem_flatMap_of_mem hf hname

theorem inputMembers_eq (h : c.Agree c' d) {name : String} {fields : List InputValue}
    (hb : d.body = .define (.input name fields)) : ∀ v ∈ fields, c.inputMemberFor v = c'.inputMemberFor v := by
  intro v hv
  refine h.inputMemberFor_eq ?_
  unfold Definition.references
  rw [hb]
  exact List.mem_map_of_mem hv

theorem roots_eq (h : c.Agree c' d) {operations : List (OperationKind × String)}
    (hb : d.body = .define (.schema operations)) : ∀ o ∈ operations, c.naming.name o.2 = c'.naming.name o.2 := by
  intro o ho
  refine Naming.name_congr (congrArg Config.marker h.config) (h.scalar _ ?_)
  unfold Definition.references
  rw [hb]
  exact List.mem_map_of_mem ho

/-- **A declaration depends on what its definition refers to.** -/
theorem declaration?_eq (h : c.Agree c' d) : c.declaration? d = c'.declaration? d := by
  have hheader := h.header_eq
  cases hb : d.body with
  | define system =>
    cases system with
    | object t =>
      have himplemented : d.implemented = t.interfaces := by
        unfold Definition.implemented
        rw [hb]
      have hinherited := h.inherited_eq
      rw [himplemented] at hinherited
      rw [declaration?_object hb, declaration?_object hb, hheader, hinherited,
        List.map_congr_left fun f hf => h.members_eq (.inl hb) f (List.mem_of_mem_filter hf)]
    | interface t =>
      rw [declaration?_interface hb, declaration?_interface hb, hheader,
        List.map_congr_left (h.members_eq (.inr hb))]
    | input name fields =>
      rw [declaration?_input hb, declaration?_input hb, hheader, List.map_congr_left (h.inputMembers_eq hb)]
    | schema operations =>
      have hroots := h.roots_eq hb
      rw [declaration?_schema hb, declaration?_schema hb, hheader,
        List.map_congr_left fun o ho => by rw [hroots o ho]]
    | _ =>
      unfold declaration?
      simp only [hb, hheader]
  | _ =>
    unfold declaration?
    simp only [hb]

end Agree
end Context
end SchemaDart
