import Mathlib.Data.List.TakeWhile

/-!
# Delimited texts

A printer is delimited if a text that begins with what it prints shows what was printed and where it ends.
`Delimited p P F` says so of the printer `p` for values that satisfy `P`, in front of texts that satisfy `F`.
Sequences of characters of one kind are delimited by a character of another kind (`append_cons_inj`); the other
rules build delimited printers from delimited printers: behind a fixed text, in front of one, for values that may be
absent, and for lists with or without separator.

`Apart p P E` says that no text in `E` begins with what `p` prints: then `E` may follow a list of such items.
-/

namespace SchemaDart

variable {α : Type}

/-- In front of a text in `F`, what `p` prints for a value in `P` determines the value and where it ends. -/
def Delimited (p : α → List Char) (P : α → Prop) (F : List Char → Prop) : Prop :=
  ∀ ⦃a b : α⦄ ⦃r s : List Char⦄, P a → P b → F r → F s → p a ++ r = p b ++ s → a = b ∧ r = s

/-- No text in `E` begins with what `p` prints for a value in `P`. -/
def Apart (p : α → List Char) (P : α → Prop) (E : List Char → Prop) : Prop :=
  ∀ ⦃a : α⦄ ⦃r : List Char⦄, P a → ¬ E (p a ++ r)

/-- The text begins with a character of this kind. -/
def Begins (kind : Char → Prop) (r : List Char) : Prop := ∃ c t, r = c :: t ∧ kind c

/-- Characters of one kind end where a character of another kind stands. -/
theorem append_cons_inj {kind : Char → Bool} {xs ys r s : List Char} {x y : Char} (hxs : ∀ c ∈ xs, kind c)
    (hys : ∀ c ∈ ys, kind c) (hx : ¬ kind x) (hy : ¬ kind y) (h : xs ++ x :: r = ys ++ y :: s) :
    xs = ys ∧ x = y ∧ r = s := by
  have htake := congrArg (List.takeWhile kind) h
  rw [List.takeWhile_append_of_pos hxs, List.takeWhile_append_of_pos hys, List.takeWhile_cons_of_neg hx,
    List.takeWhile_cons_of_neg hy, List.append_nil, List.append_nil] at htake
  subst htake
  obtain ⟨hxy, hrs⟩ := List.cons.inj (List.append_cancel_left h)
  exact ⟨rfl, hxy, hrs⟩

namespace Delimited

variable {p : α → List Char} {P : α → Prop} {E F : List Char → Prop}

theorem mono {P' : α → Prop} (hp : Delimited p P F) (hP : ∀ a, P' a → P a) (hE : ∀ r, E r → F r) :
    Delimited p P' E :=
  fun a b r s ha hb hr hs h => hp (hP a ha) (hP b hb) (hE r hr) (hE s hs) h

theorem behind (opening : List Char) (hp : Delimited p P F) : Delimited (fun a => opening ++ p a) P F := by
  intro a b r s ha hb hr hs h
  rw [List.append_assoc, List.append_assoc] at h
  exact hp ha hb hr hs (List.append_cancel_left h)

theorem before (closing : List Char) (hp : Delimited p P F) (hF : ∀ r, E r → F (closing ++ r)) :
    Delimited (fun a => p a ++ closing) P E := by
  intro a b r s ha hb hr hs h
  rw [List.append_assoc, List.append_assoc] at h
  obtain ⟨hab, hrs⟩ := hp ha hb (hF r hr) (hF s hs) h
  exact ⟨hab, List.append_cancel_left hrs⟩

/-- A value that may be absent, with nothing printed then. -/
theorem option (hp : Delimited p P F) (hF : Apart p P F) :
    Delimited (fun o : Option α => (o.map p).getD []) (fun o => ∀ a ∈ o, P a) F := by
  intro o o' r s ho ho' hr hs h
  cases o with
  | none =>
    cases o' with
    | none => exact ⟨rfl, h⟩
    | some b =>
      have hr' : F (p b ++ s) := (show r = p b ++ s from h) ▸ hr
      exact absurd hr' (hF (ho' b rfl))
  | some a =>
    cases o' with
    | none =>
      have hs' : F (p a ++ r) := (show p a ++ r = s from h) ▸ hs
      exact absurd hs' (hF (ho a rfl))
    | some b =>
      obtain ⟨rfl, hrs⟩ := hp (ho a rfl) (ho' b rfl) hr hs h
      exact ⟨rfl, hrs⟩

/-- A list in which nothing is printed for the empty list. -/
theorem unlessEmpty {q : List α → List Char} {Q : List α → Prop} (opening : List Char) (hq : Delimited q Q E)
    (hE : ∀ r, ¬ E (opening ++ r)) : Delimited (fun as => if as.isEmpty then [] else opening ++ q as) Q E := by
  intro as bs r s has hbs hr hs h
  cases as with
  | nil =>
    cases bs with
    | nil => exact ⟨rfl, h⟩
    | cons b bs =>
      have hr' : E (opening ++ q (b :: bs) ++ s) := (show r = _ from h) ▸ hr
      exact absurd (List.append_assoc opening (q (b :: bs)) s ▸ hr') (hE _)
  | cons a as =>
    cases bs with
    | nil =>
      have hs' : E (opening ++ q (a :: as) ++ r) := (show _ = s from h) ▸ hs
      exact absurd (List.append_assoc opening (q (a :: as)) r ▸ hs') (hE _)
    | cons b bs => exact hq.behind opening has hbs hr hs h

/-- Two lists printed as their first item and what `rest` prints behind it begin with the same item, if any. -/
theorem uncons {print rest : List α → List Char} (hnil : print [] = [])
    (hcons : ∀ a as, print (a :: as) = p a ++ rest as) (hp : Delimited p P F) (hE : Apart p P E)
    (hrest : ∀ as r, (∀ a ∈ as, P a) → E r → F (rest as ++ r)) {as bs : List α} {r s : List Char}
    (has : ∀ a ∈ as, P a) (hbs : ∀ b ∈ bs, P b) (hr : E r) (hs : E s) (h : print as ++ r = print bs ++ s) :
    (as = [] ∧ bs = [] ∧ r = s) ∨ ∃ a as' bs', as = a :: as' ∧ bs = a :: bs' ∧ rest as' ++ r = rest bs' ++ s := by
  cases as with
  | nil =>
    cases bs with
    | nil =>
      rw [hnil] at h
      exact .inl ⟨rfl, rfl, h⟩
    | cons b bs =>
      rw [hnil, hcons, List.append_assoc] at h
      have hr' : E (p b ++ (rest bs ++ s)) := (show r = _ from h) ▸ hr
      exact absurd hr' (hE (hbs b List.mem_cons_self))
  | cons a as =>
    rw [hcons, List.append_assoc] at h
    cases bs with
    | nil =>
      rw [hnil] at h
      have hs' : E (p a ++ (rest as ++ r)) := (show _ = s from h) ▸ hs
      exact absurd hs' (hE (has a List.mem_cons_self))
    | cons b bs =>
      rw [hcons, List.append_assoc] at h
      have hras := hrest as r (fun c hc => has c (List.mem_cons_of_mem a hc)) hr
      have hrbs := hrest bs s (fun c hc => hbs c (List.mem_cons_of_mem b hc)) hs
      obtain ⟨rfl, h'⟩ := hp (has a List.mem_cons_self) (hbs b List.mem_cons_self) hras hrbs h
      exact .inr ⟨a, as, bs, rfl, rfl, h'⟩

/-- Behind an item of a list there is another item or the end of the list. -/
theorem follow_flatMap {as : List α} {r : List Char} (hnext : ∀ a t, P a → F (p a ++ t)) (hend : ∀ t, E t → F t)
    (has : ∀ a ∈ as, P a) (hr : E r) : F (as.flatMap p ++ r) := by
  cases as with
  | nil => exact hend r hr
  | cons a as =>
    rw [List.flatMap_cons, List.append_assoc]
    exact hnext a _ (has a List.mem_cons_self)

/-- A list, in front of a text that begins with no item. -/
theorem flatMap (hp : Delimited p P F) (hnext : ∀ a r, P a → F (p a ++ r)) (hend : ∀ r, E r → F r)
    (hE : Apart p P E) : Delimited (List.flatMap p) (fun as => ∀ a ∈ as, P a) E := by
  have hrest : ∀ (as : List α) (r : List Char), (∀ a ∈ as, P a) → E r → F (as.flatMap p ++ r) :=
    fun _ _ has hr => follow_flatMap hnext hend has hr
  intro as
  induction as with
  | nil =>
    intro bs r s has hbs hr hs h
    rcases uncons List.flatMap_nil (fun _ _ => List.flatMap_cons) hp hE hrest has hbs hr hs h with
      ⟨-, rfl, hrs⟩ | ⟨_, _, _, hnil, -⟩
    · exact ⟨rfl, hrs⟩
    · cases hnil
  | cons a as ih =>
    intro bs r s has hbs hr hs h
    rcases uncons List.flatMap_nil (fun _ _ => List.flatMap_cons) hp hE hrest has hbs hr hs h with
      ⟨hcons, -⟩ | ⟨_, _, bs, hcons, rfl, h'⟩
    · cases hcons
    · cases hcons
      obtain ⟨rfl, hrs⟩ := ih (fun c hc => has c (List.mem_cons_of_mem a hc))
        (fun c hc => hbs c (List.mem_cons_of_mem a hc)) hr hs h'
      exact ⟨rfl, hrs⟩

end Delimited

/-! ## Separated lists -/

/-- A list of items with a separator between two. -/
def separated (sep : List Char) (p : α → List Char) : List α → List Char
  | [] => []
  | a :: as => p a ++ as.flatMap fun b => sep ++ p b

theorem separated_cons (sep : List Char) (p : α → List Char) (a : α) (as : List α) :
    separated sep p (a :: as) = p a ++ as.flatMap fun b => sep ++ p b := rfl

theorem toList_intercalate_map (sep : String) (f : α → String) (as : List α) :
    (sep.intercalate (as.map f)).toList = separated sep.toList (fun a => (f a).toList) as := by
  cases as with
  | nil => rw [List.map_nil, String.intercalate_nil]; rfl
  | cons a as =>
    rw [separated_cons]
    induction as generalizing a with
    | nil => rw [List.map_cons, List.map_nil, String.intercalate_singleton, List.flatMap_nil, List.append_nil]
    | cons b as ih =>
      rw [List.map_cons, List.map_cons, String.intercalate_cons_cons, ← List.map_cons, String.toList_append,
        String.toList_append, ih b, List.flatMap_cons, List.append_assoc, List.append_assoc]

theorem toList_join_map (f : α → String) (as : List α) :
    (String.join (as.map f)).toList = as.flatMap fun a => (f a).toList := by
  rw [String.toList_join, List.flatMap_map]

/-- A separated list, in front of a text that begins neither with an item nor with the separator. -/
theorem Delimited.separated {p : α → List Char} {P : α → Prop} {E F : List Char → Prop} {sep : List Char}
    (hp : Delimited p P F) (hsep : ∀ r, F (sep ++ r)) (hend : ∀ r, E r → F r) (hE : Apart p P E)
    (hE' : ∀ r, ¬ E (sep ++ r)) : Delimited (separated sep p) (fun as => ∀ a ∈ as, P a) E := by
  have hnext : ∀ (a : α) (r : List Char), P a → F (sep ++ p a ++ r) := fun a r _ => by
    rw [List.append_assoc]
    exact hsep _
  have hrest : Delimited (List.flatMap fun b => sep ++ p b) (fun as => ∀ a ∈ as, P a) E :=
    (hp.behind sep).flatMap hnext hend fun a r _ h => hE' _ (List.append_assoc sep (p a) r ▸ h)
  intro as bs r s has hbs hr hs h
  rcases uncons rfl (separated_cons sep p) hp hE (fun _ _ has hr => follow_flatMap hnext hend has hr)
    has hbs hr hs h with ⟨rfl, rfl, hrs⟩ | ⟨a, as, bs, rfl, rfl, h'⟩
  · exact ⟨rfl, hrs⟩
  · obtain ⟨rfl, hrs⟩ := hrest (fun c hc => has c (List.mem_cons_of_mem a hc))
      (fun c hc => hbs c (List.mem_cons_of_mem a hc)) hr hs h'
    exact ⟨rfl, hrs⟩

end SchemaDart
