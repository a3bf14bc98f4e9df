import Mathlib.Data.List.Forall2
import SchemaDart.Proofs.Literal.Leaves
import SchemaDart.Proofs.Tables

/-!
# Decoded literals are canonical

A decoded value has the shape of its literal: at every depth a list has an item for each item written, and an object
has each key once, where it was written first, with the value that it was given last (`Canonical`).  What stands at a
place of the value is what the literal says at that place (`decode_within`).

Values that are canonical in themselves, without a key twice, are written back as literals that decode to them
(`decode_toLiteral?`).  So decoding is a retraction onto them.  Floating-point numbers are left out: they are not
written back.
-/

namespace SchemaDart

/-! ## Places -/

/-- A step into a list or an object. -/
inductive Step where
  | item (index : Nat)
  | entry (key : String)

/-- What stands at a place of a literal.  Of the entries with one key the last counts. -/
def Literal.at? : List Step → Literal → Option Literal
  | [], v => some v
  | .item i :: path, .list items => items[i]?.bind (at? path)
  | .entry key :: path, .object entries => (Table.get? key entries.reverse).bind (at? path)
  | _ :: _, _ => none

/-- What stands at a place of a value. -/
def Value.at? : List Step → Value → Option Value
  | [], w => some w
  | .item i :: path, .list items => items[i]?.bind (at? path)
  | .entry key :: path, .object entries => (Table.get? key entries).bind (at? path)
  | _ :: _, _ => none

namespace Value

/-- The first value is the second, or nested in it at some depth. -/
inductive Within (w : Value) : Value → Prop
  | here : Within w w
  | item {x : Value} {items : List Value} (hx : x ∈ items) (h : Within w x) : Within w (.list items)
  | entry {x : Value} {key : String} {entries : List (String × Value)} (hx : (key, x) ∈ entries)
      (h : Within w x) : Within w (.object entries)

/-- No floating-point number at any depth. -/
def FloatFree (w : Value) : Prop := ∀ x, ¬ (float x).Within w

/-- No object, at any depth, has a key twice. -/
def DistinctKeys (w : Value) : Prop := ∀ entries, (object entries).Within w → (Table.keys entries).Nodup

end Value

/-- The value has the shape of the literal: in a list, each item is the decoding of the item in its place; in an
object, the keys are those written, once each and in the order of first occurrences, and the value of each is the
decoding of its last occurrence. -/
structure Canonical (v : Literal) (w : Value) : Prop where
  list : ∀ values, w = .list values →
    ∃ items, v = .list items ∧ List.Forall₂ (fun item value => item.decode = .ok value) items values
  object : ∀ table, w = .object table →
    ∃ entries, v = .object entries ∧ (Table.keys table).Nodup ∧
      Table.keys table = (Table.keys entries).eraseDups ∧
      ∀ key value, (key, value) ∈ table →
        ∃ before last after, entries = before ++ (key, last) :: after ∧ key ∉ Table.keys after ∧
          last.decode = .ok value

/-! ## What decoding gives -/

theorem eq_ok_of_map {α β : Type} {f : α → β} {x : Except Fault α} {b : β} (h : (do return f (← x)) = .ok b) :
    ∃ a, x = .ok a ∧ f a = b := by
  cases x with
  | error => cases h
  | ok a =>
    cases h
    exact ⟨a, rfl, rfl⟩

theorem eq_ok_of_map₂ {α β γ : Type} {f : α → β → γ} {x : Except Fault α} {y : Except Fault β} {c : γ}
    (h : (do return f (← x) (← y)) = .ok c) : ∃ a b, x = .ok a ∧ y = .ok b ∧ f a b = c := by
  cases x with
  | error => cases h
  | ok a =>
    obtain ⟨b, hb, hc⟩ := eq_ok_of_map (f := f a) h
    exact ⟨a, b, rfl, hb, hc⟩

namespace Literal

theorem decodeItems_ok {vs : List Literal} {ws : List Value} (h : decodeItems vs = .ok ws) :
    List.Forall₂ (fun v w => v.decode = .ok w) vs ws := by
  induction vs generalizing ws with
  | nil =>
    cases h
    exact .nil
  | cons v vs ih =>
    rw [decodeItems] at h
    obtain ⟨w, ws, hw, hws, rfl⟩ := eq_ok_of_map₂ h
    exact .cons hw (ih hws)

theorem decodeEntries_ok {vs : List (String × Literal)} {ws : List (String × Value)} (h : decodeEntries vs = .ok ws) :
    List.Forall₂ (fun v w => v.1 = w.1 ∧ v.2.decode = .ok w.2) vs ws := by
  induction vs generalizing ws with
  | nil =>
    cases h
    exact .nil
  | cons v vs ih =>
    obtain ⟨key, v⟩ := v
    rw [decodeEntries] at h
    obtain ⟨w, ws, hw, hws, rfl⟩ := eq_ok_of_map₂ (f := fun w ws => (key, w) :: ws) h
    exact .cons ⟨rfl, hw⟩ (ih hws)

theorem getElem?_rel {α β : Type} {R : α → β → Prop} {as : List α} {bs : List β} (h : List.Forall₂ R as bs) {i : Nat}
    {b : β} (hb : bs[i]? = some b) : ∃ a, as[i]? = some a ∧ R a b := by
  induction h generalizing i with
  | nil => cases hb
  | @cons a b' as bs hab _ ih =>
    cases i with
    | zero =>
      cases hb
      exact ⟨a, rfl, hab⟩
    | succ i => exact ih hb

/-- All that decoding can give. -/
inductive Decodes : Literal → Value → Prop
  | null : Decodes .null .null
  | var (name : String) : Decodes (.var name) (.var name)
  | enum (name : String) : Decodes (.enum name) (.enum name)
  | int {text : String} {n : Int64} (h : Integer.read text = .ok n) : Decodes (.int text) (.int n)
  | float {text : String} {x : Binary64} (h : Binary64.read text = .ok x) : Decodes (.float text) (.float x)
  | string (s : String) : Decodes (.string s) (.string s)
  | boolean (b : Bool) : Decodes (.boolean b) (.boolean b)
  | list {vs : List Literal} {ws : List Value} (h : List.Forall₂ (fun v w => v.decode = .ok w) vs ws) :
      Decodes (.list vs) (.list ws)
  | object {vs : List (String × Literal)} {ws : List (String × Value)}
      (h : List.Forall₂ (fun v w => v.1 = w.1 ∧ v.2.decode = .ok w.2) vs ws) :
      Decodes (.object vs) (.object (Table.ofEntries ws))

theorem decodes_of_decode {v : Literal} {w : Value} (h : v.decode = .ok w) : Decodes v w := by
  cases v with
  | int text =>
    rw [decode] at h
    split at h
    · next hread => cases h; exact .int hread
    · cases h
  | float text =>
    rw [decode] at h
    split at h
    · next hread => cases h; exact .float hread
    · cases h
  | list vs =>
    rw [decode] at h
    obtain ⟨ws, hws, rfl⟩ := eq_ok_of_map h
    exact .list (decodeItems_ok hws)
  | object vs =>
    rw [decode] at h
    obtain ⟨ws, hws, rfl⟩ := eq_ok_of_map (f := fun ws => Value.object (Table.ofEntries ws)) h
    exact .object (decodeEntries_ok hws)
  | _ =>
    cases h
    constructor

/-- An entry of a decoded object is the decoding of the last entry with its key. -/
theorem last_of_mem_ofEntries {vs : List (String × Literal)} {ws : List (String × Value)}
    (h : List.Forall₂ (fun v w => v.1 = w.1 ∧ v.2.decode = .ok w.2) vs ws) {key : String} {w : Value}
    (hw : (key, w) ∈ Table.ofEntries ws) : ∃ v, Table.get? key vs.reverse = some v ∧ v.decode = .ok w := by
  have hget : Table.get? key ws.reverse = some w := by
    rw [← Table.get?_ofEntries]
    exact Table.get?_of_mem (Table.nodup_keys_ofEntries ws) hw
  exact Table.get?_rel (R := fun (v : Literal) w => v.decode = .ok w) (List.rel_reverse h) hget

theorem keys_eq_of_forall₂ {vs : List (String × Literal)} {ws : List (String × Value)}
    (h : List.Forall₂ (fun v w => v.1 = w.1 ∧ v.2.decode = .ok w.2) vs ws) : Table.keys ws = Table.keys vs := by
  induction h with
  | nil => rfl
  | cons hvw _ ih => rw [Table.keys_cons, Table.keys_cons, ih, hvw.1]

theorem canonical_of_decode {v : Literal} {w : Value} (h : v.decode = .ok w) : Canonical v w where
  list values hvalues := by
    subst hvalues
    cases decodes_of_decode h with
    | list hitems => exact ⟨_, rfl, hitems⟩
  object table htable := by
    subst htable
    cases decodes_of_decode h with
    | @object vs ws hentries =>
      refine ⟨vs, rfl, Table.nodup_keys_ofEntries ws, ?_, ?_⟩
      · rw [Table.keys_ofEntries, keys_eq_of_forall₂ hentries]
      · intro key value hmem
        obtain ⟨last, hlast, hdecode⟩ := last_of_mem_ofEntries hentries hmem
        obtain ⟨before, after, hsplit, hafter⟩ := Table.get?_reverse_eq_some hlast
        exact ⟨before, last, after, hsplit, hafter, hdecode⟩

/-- **What is nested in a decoded value is the decoding of what the literal says at that place.** -/
theorem decode_within {v : Literal} {w w' : Value} (hw : v.decode = .ok w) (h : w'.Within w) :
    ∃ path v', v.at? path = some v' ∧ w.at? path = some w' ∧ v'.decode = .ok w' := by
  induction h generalizing v with
  | here => exact ⟨[], v, rfl, rfl, hw⟩
  | @item x items hx _ ih =>
    cases decodes_of_decode hw with
    | @list vs _ hitems =>
      obtain ⟨i, hi⟩ := List.getElem?_of_mem hx
      obtain ⟨y, hy, hyx⟩ := getElem?_rel hitems hi
      obtain ⟨path, v', hv, hx', hdecode⟩ := ih hyx
      refine ⟨.item i :: path, v', ?_, ?_, hdecode⟩
      · rw [at?, hy]
        exact hv
      · rw [Value.at?, hi]
        exact hx'
  | @entry x key entries hx _ ih =>
    cases decodes_of_decode hw with
    | @object vs ws hentries =>
      obtain ⟨y, hy, hyx⟩ := last_of_mem_ofEntries hentries hx
      obtain ⟨path, v', hv, hx', hdecode⟩ := ih hyx
      have hget := Table.get?_of_mem (Table.nodup_keys_ofEntries ws) hx
      refine ⟨.entry key :: path, v', ?_, ?_, hdecode⟩
      · rw [at?, hy]
        exact hv
      · rw [Value.at?, hget]
        exact hx'

theorem itemLeaves_eq (vs : List Literal) : itemLeaves vs = vs.flatMap leaves := by
  induction vs with
  | nil => rfl
  | cons v vs ih => rw [itemLeaves, ih, List.flatMap_cons]

theorem entryLeaves_eq (entries : List (String × Literal)) : entryLeaves entries = entries.flatMap (·.2.leaves) := by
  induction entries with
  | nil => rfl
  | cons e entries ih =>
    obtain ⟨key, v⟩ := e
    rw [entryLeaves, ih, List.flatMap_cons]

/-- At a place of a literal there are no leaves but those of the literal. -/
theorem leaves_subset_of_at? {path : List Step} {v v' : Literal} (h : v.at? path = some v') :
    v'.leaves ⊆ v.leaves := by
  induction path generalizing v with
  | nil =>
    cases h
    exact List.Subset.refl _
  | cons step path ih =>
    rw [at?.eq_def] at h
    split at h
    · next heq => cases heq
    · next i _ items heq =>
      cases heq
      obtain ⟨y, hy, hat⟩ := Option.bind_eq_some_iff.mp h
      rw [leaves, itemLeaves_eq]
      exact fun leaf hleaf => List.mem_flatMap.mpr ⟨y, List.mem_of_getElem? hy, ih hat hleaf⟩
    · next key _ entries heq =>
      cases heq
      obtain ⟨y, hy, hat⟩ := Option.bind_eq_some_iff.mp h
      rw [leaves, entryLeaves_eq]
      exact fun leaf hleaf =>
        List.mem_flatMap.mpr ⟨(key, y), List.mem_reverse.mp (Table.mem_of_get? hy), ih hat hleaf⟩
    · cases h

end Literal

/-! ## Writing values back -/

namespace Value

mutual

/-- The literal that says a value, with integers in decimal.  A value that holds a floating-point number is not
written. -/
def toLiteral? : Value → Option Literal
  | .null => some .null
  | .var name => some (.var name)
  | .enum name => some (.enum name)
  | .int n => some (.int n.toInt.repr)
  | .float _ => none
  | .string s => some (.string s)
  | .boolean b => some (.boolean b)
  | .list items => (itemLiterals? items).map .list
  | .object entries => (entryLiterals? entries).map .object

def itemLiterals? : List Value → Option (List Literal)
  | [] => some []
  | w :: ws => w.toLiteral?.bind fun v => (itemLiterals? ws).map (v :: ·)

def entryLiterals? : List (String × Value) → Option (List (String × Literal))
  | [] => some []
  | (key, w) :: ws => w.toLiteral?.bind fun v => (entryLiterals? ws).map ((key, v) :: ·)

end

theorem FloatFree.item {items : List Value} (h : FloatFree (.list items)) {w : Value} (hw : w ∈ items) : w.FloatFree :=
  fun x hx => h x (.item hw hx)

theorem FloatFree.entry {entries : List (String × Value)} (h : FloatFree (.object entries)) {e : String × Value}
    (he : e ∈ entries) : e.2.FloatFree :=
  fun x hx => h x (.entry he hx)

theorem DistinctKeys.item {items : List Value} (h : DistinctKeys (.list items)) {w : Value} (hw : w ∈ items) :
    w.DistinctKeys :=
  fun entries hentries => h entries (.item hw hentries)

theorem DistinctKeys.entry {entries : List (String × Value)} (h : DistinctKeys (.object entries))
    {e : String × Value} (he : e ∈ entries) : e.2.DistinctKeys :=
  fun entries' hentries => h entries' (.entry he hentries)

mutual

/-- **A value without floating-point numbers and without a key twice is what its literal decodes to.** -/
theorem decode_toLiteral? : (w : Value) → w.FloatFree → w.DistinctKeys →
    ∃ v, w.toLiteral? = some v ∧ v.decode = .ok w
  | .null, _, _ => ⟨.null, rfl, rfl⟩
  | .var name, _, _ => ⟨.var name, rfl, rfl⟩
  | .enum name, _, _ => ⟨.enum name, rfl, rfl⟩
  | .int n, _, _ => by
    have hread : Integer.read n.toInt.repr = .ok n := Integer.read_eq_ok_iff.mpr (Integer.denotes_repr n.toInt)
    exact ⟨.int n.toInt.repr, rfl, by rw [Literal.decode, hread]⟩
  | .float x, hfloat, _ => absurd .here (hfloat x)
  | .string s, _, _ => ⟨.string s, rfl, rfl⟩
  | .boolean b, _, _ => ⟨.boolean b, rfl, rfl⟩
  | .list items, hfloat, hkeys => by
    obtain ⟨vs, hvs, hdecode⟩ := decodeItems_itemLiterals? items fun w hw => ⟨hfloat.item hw, hkeys.item hw⟩
    exact ⟨.list vs, by rw [toLiteral?, hvs]; rfl, by rw [Literal.decode, hdecode]; rfl⟩
  | .object entries, hfloat, hkeys => by
    obtain ⟨vs, hvs, hdecode⟩ := decodeEntries_entryLiterals? entries fun e he => ⟨hfloat.entry he, hkeys.entry he⟩
    have htable : Table.ofEntries entries = entries := Table.ofEntries_of_nodup (hkeys entries .here)
    refine ⟨.object vs, by rw [toLiteral?, hvs]; rfl, ?_⟩
    rw [Literal.decode, hdecode]
    exact congrArg (fun t => Except.ok (object t)) htable

theorem decodeItems_itemLiterals? : (ws : List Value) → (∀ w ∈ ws, w.FloatFree ∧ w.DistinctKeys) →
    ∃ vs, itemLiterals? ws = some vs ∧ Literal.decodeItems vs = .ok ws
  | [], _ => ⟨[], rfl, rfl⟩
  | w :: ws, h => by
    obtain ⟨hfloat, hkeys⟩ := h w List.mem_cons_self
    obtain ⟨v, hv, hw⟩ := decode_toLiteral? w hfloat hkeys
    obtain ⟨vs, hvs, hws⟩ := decodeItems_itemLiterals? ws fun w' hw' => h w' (List.mem_cons_of_mem w hw')
    exact ⟨v :: vs, by rw [itemLiterals?, hv, hvs]; rfl, by rw [Literal.decodeItems, hw, hws]; rfl⟩

theorem decodeEntries_entryLiterals? : (ws : List (String × Value)) → (∀ e ∈ ws, e.2.FloatFree ∧ e.2.DistinctKeys) →
    ∃ vs, entryLiterals? ws = some vs ∧ Literal.decodeEntries vs = .ok ws
  | [], _ => ⟨[], rfl, rfl⟩
  | (key, w) :: ws, h => by
    obtain ⟨hfloat, hkeys⟩ := h (key, w) List.mem_cons_self
    obtain ⟨v, hv, hw⟩ := decode_toLiteral? w hfloat hkeys
    obtain ⟨vs, hvs, hws⟩ := decodeEntries_entryLiterals? ws fun e he => h e (List.mem_cons_of_mem (key, w) he)
    exact ⟨(key, v) :: vs, by rw [entryLiterals?, hv, hvs]; rfl, by rw [Literal.decodeEntries, hw, hws]; rfl⟩

end

end Value

namespace Literal

/-- What is decoded has no key twice, at any depth. -/
theorem distinctKeys_of_decode {v : Literal} {w : Value} (h : v.decode = .ok w) : w.DistinctKeys := by
  intro entries hentries
  obtain ⟨path, v', -, -, hdecode⟩ := decode_within h hentries
  obtain ⟨_, -, hnodup, -⟩ := (canonical_of_decode hdecode).object entries rfl
  exact hnodup

/-- A floating-point number is decoded from one. -/
theorem floatFree_of_decode {v : Literal} {w : Value} (hv : ∀ text, .float text ∉ v.leaves) (h : v.decode = .ok w) :
    w.FloatFree := by
  intro x hx
  obtain ⟨path, v', hat, -, hdecode⟩ := decode_within h hx
  cases decodes_of_decode hdecode with
  | @float text _ _ =>
    refine hv text (leaves_subset_of_at? hat ?_)
    exact List.mem_singleton_self _

/-- **Decoding is a retraction onto canonical values.**  What is decoded is canonical at every depth, every canonical
value without floating-point numbers is the decoding of the literal it is written back as, and so a second decoding,
after writing back, changes nothing. -/
theorem decoding_retracts_onto_canonical :
    (∀ (v : Literal) (w : Value), v.decode = .ok w → ∀ w' : Value, w'.Within w →
      ∃ path v', v.at? path = some v' ∧ w.at? path = some w' ∧ v'.decode = .ok w' ∧ Canonical v' w') ∧
    (∀ w : Value, w.FloatFree → w.DistinctKeys → ∃ v, w.toLiteral? = some v ∧ v.decode = .ok w) ∧
    ∀ (v : Literal) (w : Value), (∀ text, .float text ∉ v.leaves) → v.decode = .ok w →
      ∃ u, w.toLiteral? = some u ∧ u.decode = .ok w := by
  refine ⟨?_, Value.decode_toLiteral?, ?_⟩
  · intro v w h w' hw'
    obtain ⟨path, v', hv', hat, hdecode⟩ := decode_within h hw'
    exact ⟨path, v', hv', hat, hdecode, canonical_of_decode hdecode⟩
  · intro v w hv h
    exact Value.decode_toLiteral? w (floatFree_of_decode hv h) (distinctKeys_of_decode h)

/-- Keys that are written again, in an object and in one nested in it, the latter with the least integer. -/
def rewrittenKeys : Literal :=
  .object [("a", .int "+1"),
    ("b", .list [.object [("x", .null), ("y", .string "s"), ("x", .int "-9223372036854775808")]]),
    ("a", .boolean true)]

/-- The nested object of `rewrittenKeys`, decoded. -/
def rewrittenInner : Value := .object [("x", .int (-0x8000000000000000)), ("y", .string "s")]

/-- The decoding of `rewrittenKeys`. -/
def rewrittenValue : Value := .object [("a", .boolean true), ("b", .list [rewrittenInner])]

theorem rewrittenKeys_canonical :
    rewrittenKeys.decode = .ok rewrittenValue ∧ rewrittenInner.Within rewrittenValue ∧
      (∃ path v', rewrittenKeys.at? path = some v' ∧ rewrittenValue.at? path = some rewrittenInner ∧
        v'.decode = .ok rewrittenInner ∧ Canonical v' rewrittenInner) ∧
      rewrittenValue.FloatFree ∧ rewrittenValue.DistinctKeys ∧
      (∃ v, rewrittenValue.toLiteral? = some v ∧ v.decode = .ok rewrittenValue) ∧
      (∀ text, .float text ∉ rewrittenKeys.leaves) ∧
      ∃ u, rewrittenValue.toLiteral? = some u ∧ u.decode = .ok rewrittenValue := by
  have hdecode : rewrittenKeys.decode = .ok rewrittenValue := rfl
  have hinner : rewrittenInner.Within rewrittenValue :=
    .entry (List.mem_cons_of_mem _ List.mem_cons_self) (.item List.mem_cons_self .here)
  have hleaves : ∀ text, .float text ∉ rewrittenKeys.leaves := by
    intro text
    simp [rewrittenKeys, leaves, entryLeaves, itemLeaves]
  have hfloat := floatFree_of_decode hleaves hdecode
  have hkeys := distinctKeys_of_decode hdecode
  obtain ⟨hcanonical, hback, hagain⟩ := decoding_retracts_onto_canonical
  exact ⟨hdecode, hinner, hcanonical _ _ hdecode _ hinner, hfloat, hkeys, hback _ hfloat hkeys, hleaves,
    hagain _ _ hleaves hdecode⟩

end Literal
end SchemaDart
