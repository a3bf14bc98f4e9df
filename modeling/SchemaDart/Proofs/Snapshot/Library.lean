import SchemaDart.Dart.Snapshot
import SchemaDart.Proofs.Snapshot.Reader

/-!
# The snapshot determines the library

Every part of a library can be told from its JSON form: for each `toJson` there is a decoder `ofJson?` that gives back
what was encoded.  Together with the reader of JSON texts they recover a library from its snapshot
(`snapshot_loses_nothing`).  Nothing is asked of names or reasons.
-/

namespace SchemaDart

namespace Json

/-- The items of an array, decoded one by one. -/
def list? {α : Type} (decode : Json → Option α) : Json → Option (List α)
  | .array items => items.mapM decode
  | _ => none

/-- A value that may be absent; absence is `null`. -/
def toOption? {α : Type} (decode : Json → Option α) : Json → Option (Option α)
  | .null => some none
  | j => (decode j).map some

def string? : Json → Option String
  | .string s => some s
  | _ => none

variable {α : Type} {encode : α → Json} {decode : Json → Option α} (h : ∀ a, decode (encode a) = some a)
include h

theorem list?_array_map (as : List α) : list? decode (.array (as.map encode)) = some as := by
  unfold list?
  induction as with
  | nil => rfl
  | cons a as ih =>
    dsimp only at ih ⊢
    rw [List.map_cons, List.mapM_cons, h, ih]
    rfl

/-- What decodes to a value is told from `null`, if `null` decodes to nothing. -/
theorem toOption?_ofOption (hnull : decode .null = none) (o : Option α) :
    toOption? decode (ofOption encode o) = some o := by
  cases o with
  | none => rfl
  | some a =>
    have ha := h a
    show toOption? decode (encode a) = some (some a)
    cases hj : encode a with
    | null =>
      rw [hj, hnull] at ha
      cases ha
    | _ =>
      rw [hj] at ha
      show (decode _).map some = some (some a)
      rw [ha]
      rfl

end Json

theorem Json.list?_strings (texts : List String) : Json.list? Json.string? (Json.strings texts) = some texts := by
  have hstring : ∀ s, Json.string? (.string s) = some s := fun _ => rfl
  exact Json.list?_array_map hstring texts

/-! ## Members -/

def DartType.ofJson? : Json → Option DartType
  | .object [("NamedType", .object [("name", .string name)])] => some (.named name)
  | .object [("List", .object [("ty", element)])] => (DartType.ofJson? element).map .list
  | _ => none

theorem DartType.ofJson?_toJson (t : DartType) : DartType.ofJson? t.toJson = some t := by
  induction t with
  | named name => rw [toJson, ofJson?]
  | list element ih =>
    rw [toJson, ofJson?, ih]
    rfl

def Deprecation.ofJson? : Json → Option Deprecation
  | .string "Bare" => some .bare
  | .object [("Reasons", texts)] => (Json.list? Json.string? texts).map .reasons
  | _ => none

theorem Deprecation.ofJson?_toJson (d : Deprecation) : Deprecation.ofJson? d.toJson = some d := by
  cases d with
  | bare => rfl
  | reasons texts =>
    rw [toJson, ofJson?, Json.list?_strings]
    rfl

def Parameter.ofJson? : Json → Option Parameter
  | .object [("name", .string name), ("ty", type), ("deprecated", deprecation)] => do
    return ⟨name, ← DartType.ofJson? type, ← Json.toOption? Deprecation.ofJson? deprecation⟩
  | _ => none

theorem Parameter.ofJson?_toJson (p : Parameter) : Parameter.ofJson? p.toJson = some p := by
  rw [toJson, ofJson?, DartType.ofJson?_toJson, Json.toOption?_ofOption Deprecation.ofJson?_toJson rfl]
  rfl

def Member.ofJson? : Json → Option Member
  | .object [("name", .string name), ("ty", type), ("args", parameters), ("deprecated", deprecation)] => do
    return ⟨name, ← DartType.ofJson? type, ← Json.list? Parameter.ofJson? parameters,
      ← Json.toOption? Deprecation.ofJson? deprecation⟩
  | _ => none

theorem Member.ofJson?_toJson (m : Member) : Member.ofJson? m.toJson = some m := by
  rw [toJson, ofJson?, DartType.ofJson?_toJson, Json.list?_array_map Parameter.ofJson?_toJson,
    Json.toOption?_ofOption Deprecation.ofJson?_toJson rfl]
  rfl

/-! ## Declarations -/

def LineRange.ofJson? : Json → Option LineRange
  | .array [.number first, .number last] => some ⟨first, last⟩
  | _ => none

def Header.ofJson? : Json → Option Header
  | .object [("kind", .string kind), ("lines", lines)] => do
    return ⟨kind, ← Json.toOption? LineRange.ofJson? lines⟩
  | _ => none

theorem Header.ofJson?_toJson (h : Header) : Header.ofJson? h.toJson = some h := by
  have hlines : ∀ r : LineRange, LineRange.ofJson? r.toJson = some r := fun _ => rfl
  rw [toJson, ofJson?, Json.toOption?_ofOption hlines rfl]
  rfl

def ClassDecl.ofJson? : Json → Option ClassDecl
  | .object [("header", header), ("name", .string name), ("interfaces", interfaces), ("members", members)] => do
    return ⟨← Json.toOption? Header.ofJson? header, name, ← Json.list? Json.string? interfaces,
      ← Json.list? Member.ofJson? members⟩
  | _ => none

theorem ClassDecl.ofJson?_toJson (c : ClassDecl) : ClassDecl.ofJson? c.toJson = some c := by
  rw [toJson, ofJson?, Json.toOption?_ofOption Header.ofJson?_toJson rfl, Json.list?_strings,
    Json.list?_array_map Member.ofJson?_toJson]
  rfl

def EnumDecl.ofJson? : Json → Option EnumDecl
  | .object [("header", header), ("name", .string name), ("values", values)] => do
    return ⟨← Json.toOption? Header.ofJson? header, name, ← Json.list? Json.string? values⟩
  | _ => none

theorem EnumDecl.ofJson?_toJson (e : EnumDecl) : EnumDecl.ofJson? e.toJson = some e := by
  rw [toJson, ofJson?, Json.toOption?_ofOption Header.ofJson?_toJson rfl, Json.list?_strings]
  rfl

def RootOperation.ofJson? : Json → Option RootOperation
  | .object [("operation", .string operation), ("ty", .string type)] => some ⟨operation, type⟩
  | _ => none

def SchemaDecl.ofJson? : Json → Option SchemaDecl
  | .object [("header", header), ("root_operations", roots)] => do
    return ⟨← Json.toOption? Header.ofJson? header, ← Json.list? RootOperation.ofJson? roots⟩
  | _ => none

theorem SchemaDecl.ofJson?_toJson (s : SchemaDecl) : SchemaDecl.ofJson? s.toJson = some s := by
  have hroots : ∀ r : RootOperation, RootOperation.ofJson? r.toJson = some r := fun _ => rfl
  rw [toJson, ofJson?, Json.toOption?_ofOption Header.ofJson?_toJson rfl, Json.list?_array_map hroots]
  rfl

def Declaration.ofJson? : Json → Option Declaration
  | .object [("Class", decl)] => (ClassDecl.ofJson? decl).map .ofClass
  | .object [("Enum", decl)] => (EnumDecl.ofJson? decl).map .ofEnum
  | .object [("Schema", decl)] => (SchemaDecl.ofJson? decl).map .ofSchema
  | _ => none

theorem Declaration.ofJson?_toJson (d : Declaration) : Declaration.ofJson? d.toJson = some d := by
  cases d with
  | ofClass c =>
    rw [toJson, ofJson?, ClassDecl.ofJson?_toJson]
    rfl
  | ofEnum e =>
    rw [toJson, ofJson?, EnumDecl.ofJson?_toJson]
    rfl
  | ofSchema s =>
    rw [toJson, ofJson?, SchemaDecl.ofJson?_toJson]
    rfl

/-! ## Libraries -/

def Library.ofJson? (j : Json) : Option Library := (Json.list? Declaration.ofJson? j).map Library.mk

/-- The library that a text is the snapshot of. -/
def Library.ofSnapshot? (text : String) : Option Library := (Json.read? text).bind Library.ofJson?

theorem Library.ofSnapshot?_snapshot (l : Library) : Library.ofSnapshot? l.snapshot = some l := by
  rw [ofSnapshot?, snapshot, Json.read?_pretty, Option.bind_some, ofJson?, toJson,
    Json.list?_array_map Declaration.ofJson?_toJson]
  rfl

/-- **The snapshot loses nothing.**  Every library is recovered from its snapshot, whatever texts its names and the
reasons of its marks are; so libraries with the same snapshot are the same. -/
theorem snapshot_loses_nothing :
    (∀ l : Library, Library.ofSnapshot? l.snapshot = some l) ∧ Function.Injective Library.snapshot := by
  refine ⟨Library.ofSnapshot?_snapshot, fun l m h => ?_⟩
  have hread := congrArg Library.ofSnapshot? h
  rw [Library.ofSnapshot?_snapshot, Library.ofSnapshot?_snapshot] at hread
  exact Option.some.inj hread

end SchemaDart
