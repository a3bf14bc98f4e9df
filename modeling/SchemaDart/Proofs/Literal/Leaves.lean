import SchemaDart.Literal.Value
import SchemaDart.Proofs.Numerals

/-!
# The leaves of a literal

A literal fails to decode for one of its leaves and for nothing else: lists and objects add no faults of their own, and
that a key is written twice loses none.  So the fault of a literal is the first among the faults of its leaves, in
written order (`fault?_decode`), and the leaves with a fault are the malformed numbers (`malformed_iff`).
-/

namespace SchemaDart

/-- The fault with which something fails. -/
def fault? {α : Type} : Except Fault α → Option Fault
  | .ok _ => none
  | .error fault => some fault

theorem fault?_eq_some_iff {α : Type} {x : Except Fault α} {fault : Fault} :
    fault? x = some fault ↔ x = .error fault := by
  cases x <;> simp [fault?]

theorem fault?_map {α β : Type} (f : α → β) (x : Except Fault α) : fault? (do return f (← x)) = fault? x := by
  cases x <;> rfl

theorem fault?_map₂ {α β γ : Type} (f : α → β → γ) (x : Except Fault α) (y : Except Fault β) :
    fault? (do return f (← x) (← y)) = (fault? x).or (fault? y) := by
  cases x with
  | error => rfl
  | ok a => exact fault?_map (f a) y

namespace Literal

mutual

/-- What a literal holds that is neither list nor object, in written order. -/
def leaves : Literal → List Literal
  | .list items => itemLeaves items
  | .object entries => entryLeaves entries
  | leaf => [leaf]

/-- The leaves of the items of a list. -/
def itemLeaves : List Literal → List Literal
  | [] => []
  | v :: vs => v.leaves ++ itemLeaves vs

/-- The leaves of the entries of an object, also of those that a later one replaces. -/
def entryLeaves : List (String × Literal) → List Literal
  | [] => []
  | (_, v) :: entries => v.leaves ++ entryLeaves entries

end

/-- A number that does not look like one, or an integer out of range. -/
def Malformed : Literal → Prop
  | .int text => ¬ ∃ n, Integer.Denotes text n ∧ Integer.InRange n
  | .float text => ¬ Binary64.IsNumeral text
  | _ => False

/-- The literal is a number that cannot be read, and the fault says so with the cause. -/
inductive Blamed : Literal → Fault → Prop
  | int {text : String} {cause : IntegerFault} (h : Integer.read text = .error cause) :
      Blamed (.int text) (.invalidInt cause)
  | float {text : String} {cause : FloatFault} (h : Binary64.read text = .error cause) :
      Blamed (.float text) (.invalidFloat cause)

/-- The fault that a literal has of its own, not through what it holds. -/
def ownFault? : Literal → Option Fault
  | .int text => fault? (decode (.int text))
  | .float text => fault? (decode (.float text))
  | _ => none

mutual

/-- **The fault of a literal is the first fault of a leaf.** -/
theorem fault?_decode : (v : Literal) → fault? v.decode = v.leaves.findSome? ownFault?
  | .null | .var _ | .enum _ | .string _ | .boolean _ => rfl
  | .int _ | .float _ => by simp [leaves, ownFault?]
  | .list items => by rw [decode, fault?_map, leaves, fault?_decodeItems items]
  | .object entries => by
    rw [decode, leaves, ← fault?_decodeEntries entries]
    exact fault?_map (fun es => Value.object (Table.ofEntries es)) _

theorem fault?_decodeItems : (vs : List Literal) →
    fault? (decodeItems vs) = (itemLeaves vs).findSome? ownFault?
  | [] => rfl
  | v :: vs => by
    rw [decodeItems, fault?_map₂, itemLeaves, List.findSome?_append, fault?_decode v, fault?_decodeItems vs]

theorem fault?_decodeEntries : (entries : List (String × Literal)) →
    fault? (decodeEntries entries) = (entryLeaves entries).findSome? ownFault?
  | [] => rfl
  | (key, v) :: entries => by
    rw [decodeEntries, entryLeaves, List.findSome?_append, ← fault?_decode v, ← fault?_decodeEntries entries]
    exact fault?_map₂ (fun x es => (key, x) :: es) _ _

end

theorem ownFault?_eq_some {v : Literal} {fault : Fault} (h : v.ownFault? = some fault) :
    v.decode = .error fault ∧ v.Blamed fault := by
  cases v with
  | int text =>
    have hdecode := fault?_eq_some_iff.mp h
    refine ⟨hdecode, ?_⟩
    rw [decode] at hdecode
    cases hread : Integer.read text with
    | ok n => rw [hread] at hdecode; cases hdecode
    | error cause => rw [hread] at hdecode; cases hdecode; exact .int hread
  | float text =>
    have hdecode := fault?_eq_some_iff.mp h
    refine ⟨hdecode, ?_⟩
    rw [decode] at hdecode
    cases hread : Binary64.read text with
    | ok x => rw [hread] at hdecode; cases hdecode
    | error cause => rw [hread] at hdecode; cases hdecode; exact .float hread
  | _ => cases h

/-- A literal has a fault of its own if it is a malformed number. -/
theorem malformed_iff {v : Literal} : v.Malformed ↔ v.ownFault?.isSome := by
  cases v with
  | int text =>
    show (¬ ∃ n, Integer.Denotes text n ∧ Integer.InRange n) ↔ (fault? (decode (.int text))).isSome
    rw [← Integer.read_isOk_iff, decode]
    cases Integer.read text <;> simp [fault?]
  | float text =>
    show ¬ Binary64.IsNumeral text ↔ (fault? (decode (.float text))).isSome
    rw [← Binary64.read_isOk_iff, decode]
    cases Binary64.read text <;> simp [fault?]
  | _ => exact iff_of_false id Bool.false_ne_true

theorem not_malformed_iff {v : Literal} : ¬ v.Malformed ↔ v.ownFault? = none := by
  rw [malformed_iff, Option.not_isSome_iff_eq_none]

/-- **A literal fails to decode exactly if it has a malformed leaf, and then with the fault of the first.** -/
theorem decode_fails_at_first_malformed_leaf (v : Literal) :
    ((∃ fault, v.decode = .error fault) ↔ ∃ leaf ∈ v.leaves, leaf.Malformed) ∧
      ∀ (before : List Literal) (leaf : Literal) (after : List Literal), v.leaves = before ++ leaf :: after →
        (∀ l ∈ before, ¬ l.Malformed) → leaf.Malformed →
          ∃ fault, v.decode = .error fault ∧ leaf.decode = .error fault ∧ leaf.Blamed fault := by
  constructor
  · constructor
    · rintro ⟨fault, hfault⟩
      rw [← fault?_eq_some_iff, fault?_decode] at hfault
      obtain ⟨leaf, hleaf, hown⟩ := List.exists_of_findSome?_eq_some hfault
      exact ⟨leaf, hleaf, malformed_iff.mpr (by rw [hown]; rfl)⟩
    · rintro ⟨leaf, hleaf, hmalformed⟩
      have hsome : (v.leaves.findSome? ownFault?).isSome :=
        List.findSome?_isSome_iff.mpr ⟨leaf, hleaf, malformed_iff.mp hmalformed⟩
      obtain ⟨fault, hfault⟩ := Option.isSome_iff_exists.mp hsome
      exact ⟨fault, fault?_eq_some_iff.mp ((fault?_decode v).trans hfault)⟩
  · intro before leaf after hleaves hbefore hmalformed
    obtain ⟨fault, hown⟩ := Option.isSome_iff_exists.mp (malformed_iff.mp hmalformed)
    have hfirst : v.leaves.findSome? ownFault? = some fault :=
      List.findSome?_eq_some_iff.mpr
        ⟨before, leaf, after, hleaves, hown, fun l hl => not_malformed_iff.mp (hbefore l hl)⟩
    obtain ⟨hleaf, hblamed⟩ := ownFault?_eq_some hown
    exact ⟨fault, fault?_eq_some_iff.mp ((fault?_decode v).trans hfirst), hleaf, hblamed⟩

/-- A malformed number behind the least integer, under a key that is written again. -/
def replacedNumber : Literal :=
  .object [("a", .list [.int "-9223372036854775808", .float "1e"]), ("b", .null), ("a", .int "")]

theorem replacedNumber_fails_at_first :
    (∀ l ∈ [Literal.int "-9223372036854775808"], ¬ l.Malformed) ∧ Malformed (.float "1e") ∧
      ∃ fault, replacedNumber.decode = .error fault ∧ decode (.float "1e") = .error fault ∧
        Blamed (.float "1e") fault := by
  have hbefore : ∀ l ∈ [Literal.int "-9223372036854775808"], ¬ l.Malformed := by
    intro l hl
    rw [List.mem_singleton.mp hl, not_malformed_iff]
    decide
  have hleaf : Malformed (.float "1e") := malformed_iff.mpr (by decide)
  exact ⟨hbefore, hleaf, (decode_fails_at_first_malformed_leaf replacedNumber).2 _ _ [.null, .int ""] rfl hbefore hleaf⟩

end Literal
end SchemaDart
