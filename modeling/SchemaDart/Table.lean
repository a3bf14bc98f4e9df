/-!
# Insertion-ordered tables

A table is the list of its entries, each key once.  Writing to a key that is present keeps the key's place and
replaces its value; a new key goes to the end.  So the order of a table is the order of first writes, and its
contents are those of the last writes.
-/

namespace SchemaDart

/-- Entries by key, in the order in which the keys were first written. -/
abbrev Table (κ α : Type) := List (κ × α)

namespace Table

variable {κ α : Type}

/-- The keys, in order of first write. -/
def keys (t : Table κ α) : List κ := t.map Prod.fst

variable [DecidableEq κ]

/-- Writes `a` under `k`. -/
def insert (k : κ) (a : α) : Table κ α → Table κ α
  | [] => [(k, a)]
  | (k', b) :: t => if k' = k then (k', a) :: t else (k', b) :: insert k a t

/-- What stands under `k`. -/
def get? (k : κ) : Table κ α → Option α
  | [] => none
  | (k', a) :: t => if k' = k then some a else get? k t

/-- The table that results from writing `entries` one after the other to `t`. -/
def insertAll (t : Table κ α) (entries : List (κ × α)) : Table κ α :=
  entries.foldl (fun t e => insert e.1 e.2 t) t

/-- The table that results from writing `entries` one after the other. -/
def ofEntries (entries : List (κ × α)) : Table κ α := insertAll [] entries

theorem get?_insert (k k' : κ) (a : α) (t : Table κ α) :
    get? k' (insert k a t) = if k = k' then some a else get? k' t := by
  induction t with
  | nil => simp [insert, get?]
  | cons e t ih =>
    obtain ⟨j, b⟩ := e
    by_cases h : j = k
    · subst h
      by_cases h' : j = k' <;> simp [insert, get?, h']
    · by_cases h' : j = k'
      · subst h'
        simp [insert, get?, h, Ne.symm h]
      · simp [insert, get?, h, h', ih]

theorem keys_insert (k : κ) (a : α) (t : Table κ α) :
    keys (insert k a t) = if k ∈ keys t then keys t else keys t ++ [k] := by
  induction t with
  | nil => simp [insert, keys]
  | cons e t ih =>
    obtain ⟨j, b⟩ := e
    by_cases h : j = k
    · simp [insert, keys, h]
    · have h' : ¬ k = j := fun e => h e.symm
      simp only [keys] at ih
      by_cases hk : k ∈ t.map Prod.fst <;> simp [insert, keys, h, h', ih, hk]

end Table

end SchemaDart
