import Mathlib.Data.List.Induction
import Mathlib.Data.List.Nodup
import SchemaDart.Table

/-!
# Tables written entry by entry

The keys of a table that results from writing entries are the keys of the entries in the order of first occurrences
(`keys_ofEntries`), so each stands there once, and under each is what was written last (`get?_ofEntries`).  Entries
with distinct keys are a table already (`ofEntries_of_nodup`).
-/

namespace SchemaDart

/-! ## First occurrences -/

section FirstOccurrences

variable {α : Type} [DecidableEq α]

/-- One more entry counts if it has not occurred before. -/
theorem eraseDups_append_toList (as : List α) (o : Option α) :
    (as ++ o.toList).eraseDups =
      o.elim as.eraseDups fun a => if a ∈ as.eraseDups then as.eraseDups else as.eraseDups ++ [a] := by
  cases o with
  | none => rw [Option.toList_none, List.append_nil]; rfl
  | some a =>
    simp only [Option.toList_some, Option.elim_some, List.eraseDups_append, List.mem_eraseDups]
    by_cases ha : a ∈ as
    · simp [List.removeAll, ha]
    · simp [List.removeAll, ha, List.eraseDups_cons]

theorem eraseDups_concat (as : List α) (a : α) :
    (as ++ [a]).eraseDups = if a ∈ as.eraseDups then as.eraseDups else as.eraseDups ++ [a] :=
  eraseDups_append_toList as (some a)

theorem nodup_eraseDups (as : List α) : as.eraseDups.Nodup := by
  induction as using List.reverseRecOn with
  | nil => exact List.nodup_nil
  | append_singleton as a ih =>
    rw [eraseDups_concat]
    split_ifs with ha
    · exact ih
    · rw [← List.concat_eq_append]
      exact ih.concat ha

/-- What occurs in a first list or else in a second, as first occurrences. -/
theorem eraseDups_append_filter (as bs : List α) :
    (as ++ bs).eraseDups = as.eraseDups ++ bs.eraseDups.filter (· ∉ as.eraseDups) := by
  induction bs using List.reverseRecOn with
  | nil => simp
  | append_singleton bs b ih =>
    rw [← List.append_assoc, eraseDups_concat, eraseDups_concat, ih]
    by_cases ha : b ∈ as <;> by_cases hb : b ∈ bs <;> simp [ha, hb]

end FirstOccurrences

/-! ## Tables -/

namespace Table

variable {κ α β : Type}

theorem keys_cons (e : κ × α) (t : Table κ α) : keys (e :: t) = e.1 :: keys t := rfl

theorem mem_keys_of_mem {k : κ} {a : α} {t : Table κ α} (h : (k, a) ∈ t) : k ∈ keys t :=
  List.mem_map.mpr ⟨(k, a), h, rfl⟩

variable [DecidableEq κ]

theorem ofEntries_concat (entries : List (κ × α)) (k : κ) (a : α) :
    ofEntries (entries ++ [(k, a)]) = insert k a (ofEntries entries) := by
  simp [ofEntries, insertAll]

theorem keys_ofEntries (entries : List (κ × α)) : keys (ofEntries entries) = (keys entries).eraseDups := by
  induction entries using List.reverseRecOn with
  | nil => rfl
  | append_singleton entries e ih =>
    obtain ⟨k, a⟩ := e
    have hkeys : keys (entries ++ [(k, a)]) = keys entries ++ [k] := by simp [keys]
    rw [ofEntries_concat, keys_insert, ih, hkeys, eraseDups_concat]

theorem nodup_keys_ofEntries (entries : List (κ × α)) : (keys (ofEntries entries)).Nodup := by
  rw [keys_ofEntries]
  exact nodup_eraseDups _

/-- What is found in a table is what was written last. -/
theorem get?_ofEntries (k : κ) (entries : List (κ × α)) : get? k (ofEntries entries) = get? k entries.reverse := by
  induction entries using List.reverseRecOn with
  | nil => rfl
  | append_singleton entries e ih =>
    obtain ⟨j, a⟩ := e
    rw [ofEntries_concat, get?_insert, ih, List.reverse_append]
    rfl

theorem mem_of_get? {k : κ} {a : α} {t : Table κ α} (h : get? k t = some a) : (k, a) ∈ t := by
  induction t with
  | nil => cases h
  | cons e t ih =>
    obtain ⟨j, b⟩ := e
    rw [get?] at h
    split_ifs at h with hj
    · cases h
      rw [hj]
      exact List.mem_cons_self
    · exact List.mem_cons_of_mem _ (ih h)

theorem get?_of_mem {k : κ} {a : α} {t : Table κ α} (ht : (keys t).Nodup) (h : (k, a) ∈ t) : get? k t = some a := by
  induction t with
  | nil => cases h
  | cons e t ih =>
    obtain ⟨j, b⟩ := e
    rw [keys_cons, List.nodup_cons] at ht
    rcases List.mem_cons.mp h with heq | hmem
    · cases heq
      exact if_pos rfl
    · have hj : j ≠ k := by
        rintro rfl
        exact ht.1 (mem_keys_of_mem hmem)
      rw [get?, if_neg hj]
      exact ih ht.2 hmem

/-- The first entry from behind is the last. -/
theorem get?_reverse_eq_some {k : κ} {a : α} {entries : List (κ × α)} (h : get? k entries.reverse = some a) :
    ∃ before after, entries = before ++ (k, a) :: after ∧ k ∉ keys after := by
  induction entries using List.reverseRecOn with
  | nil => cases h
  | append_singleton entries e ih =>
    obtain ⟨j, b⟩ := e
    rw [List.reverse_append, List.reverse_singleton, List.singleton_append, get?] at h
    split_ifs at h with hj
    · cases h
      exact ⟨entries, [], by rw [hj], List.not_mem_nil⟩
    · obtain ⟨before, after, rfl, hafter⟩ := ih h
      refine ⟨before, after ++ [(j, b)], by simp, ?_⟩
      have hkeys : keys (after ++ [(j, b)]) = keys after ++ [j] := by simp [keys]
      rw [hkeys, List.mem_append, List.mem_singleton]
      rintro (hk | hk)
      · exact hafter hk
      · exact hj hk.symm

/-- What is found at a key is related if entries are related one by one, with the same keys. -/
theorem get?_rel {R : α → β → Prop} {s : Table κ α} {t : Table κ β}
    (h : List.Forall₂ (fun e e' => e.1 = e'.1 ∧ R e.2 e'.2) s t) {k : κ} {b : β} (hb : get? k t = some b) :
    ∃ a, get? k s = some a ∧ R a b := by
  induction h with
  | nil => cases hb
  | @cons e e' s t he _ ih =>
    obtain ⟨j, a⟩ := e
    obtain ⟨j', b'⟩ := e'
    obtain ⟨rfl, hR⟩ : j = j' ∧ R a b' := he
    rw [get?] at hb ⊢
    split_ifs at hb ⊢ with hj
    · cases hb
      exact ⟨a, rfl, hR⟩
    · exact ih hb

theorem insert_of_not_mem {k : κ} {t : Table κ α} (h : k ∉ keys t) (a : α) : insert k a t = t ++ [(k, a)] := by
  induction t with
  | nil => rfl
  | cons e t ih =>
    obtain ⟨j, b⟩ := e
    rw [keys_cons, List.mem_cons, not_or] at h
    rw [insert, if_neg (Ne.symm h.1), ih h.2]
    rfl

theorem ofEntries_of_nodup {entries : List (κ × α)} (h : (keys entries).Nodup) : ofEntries entries = entries := by
  induction entries using List.reverseRecOn with
  | nil => rfl
  | append_singleton entries e ih =>
    obtain ⟨k, a⟩ := e
    have hkeys : keys (entries ++ [(k, a)]) = (keys entries).concat k := by simp [keys]
    rw [hkeys, List.nodup_concat] at h
    rw [ofEntries_concat, ih h.2, insert_of_not_mem h.1]

end Table
end SchemaDart
