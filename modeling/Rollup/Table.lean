/-!
# Insertion-ordered tables

A table maps keys to values and remembers the order in which its keys were first inserted.
Inserting a key again replaces its value in place.
-/

namespace Rollup

/-- Pairs of a key and its value in order of first insertion, each key once. -/
structure Table (κ α : Type) where
  /-- The pairs, oldest key first. -/
  entries : List (κ × α)
  /-- No key occurs twice. -/
  nodup : (entries.map Prod.fst).Nodup

namespace Table

variable {κ α : Type}

/-- Tables with the same pairs in the same order are equal. -/
@[ext] theorem ext {s t : Table κ α} (same : s.entries = t.entries) : s = t := by
  cases s; cases t; cases same; rfl

variable [DecidableEq κ]

/-- The pairs after one more insertion. -/
def upsert (k : κ) (v : α) : List (κ × α) → List (κ × α)
  | [] => [(k, v)]
  | (k', v') :: rest => if k' = k then (k, v) :: rest else (k', v') :: upsert k v rest

/-- Inserting a known key leaves the keys alone, a new key comes last. -/
theorem keys_upsert (k : κ) (v : α) (entries : List (κ × α)) :
    (upsert k v entries).map Prod.fst =
      if k ∈ entries.map Prod.fst then entries.map Prod.fst else entries.map Prod.fst ++ [k] := by
  induction entries with
  | nil => simp [upsert]
  | cons entry rest ih =>
    obtain ⟨k', v'⟩ := entry
    by_cases same : k' = k
    · simp [upsert, same]
    · have other : ¬ k = k' := fun e => same e.symm
      simp only [upsert, same, ↓reduceIte, List.map_cons, ih, List.mem_cons, other, false_or]
      split <;> rfl

/-- Insertion keeps the keys distinct. -/
theorem nodup_upsert (k : κ) (v : α) (entries : List (κ × α))
    (distinct : (entries.map Prod.fst).Nodup) : ((upsert k v entries).map Prod.fst).Nodup := by
  rw [keys_upsert]
  split
  · exact distinct
  · rename_i fresh
    exact List.nodup_append.2 ⟨distinct, by simp, by
      intro a known b last same
      exact fresh (by rw [List.mem_singleton] at last; rwa [← last, ← same])⟩

/-- The table without keys. -/
def empty : Table κ α := ⟨[], List.nodup_nil⟩

/-- Sets the value of a key, in place if the table has the key and at the end otherwise. -/
def insert (t : Table κ α) (k : κ) (v : α) : Table κ α :=
  ⟨upsert k v t.entries, nodup_upsert k v t.entries t.nodup⟩

/-- Value of a key. -/
def get? (t : Table κ α) (k : κ) : Option α :=
  (t.entries.find? fun entry => entry.1 = k).map Prod.snd

/-- The table has the key. -/
def contains (t : Table κ α) (k : κ) : Bool := (t.get? k).isSome

/-- Keys in order of first insertion. -/
def keys (t : Table κ α) : List κ := t.entries.map Prod.fst

/-- Values in the order of their keys. -/
def values (t : Table κ α) : List α := t.entries.map Prod.snd

/-- Inserts the pairs from left to right. -/
def insertAll (t : Table κ α) (pairs : List (κ × α)) : Table κ α :=
  pairs.foldl (fun table pair => table.insert pair.1 pair.2) t

/-- The table of the pairs, later pairs replacing the values of earlier ones. -/
def ofList (pairs : List (κ × α)) : Table κ α := empty.insertAll pairs

/-- The empty table has no value. -/
@[simp] theorem get?_empty (k : κ) : (empty : Table κ α).get? k = none := rfl

/-- A look-up after an insertion sees the new value at its key and the old ones elsewhere. -/
theorem get?_insert (t : Table κ α) (k k' : κ) (v : α) :
    (t.insert k v).get? k' = if k = k' then some v else t.get? k' := by
  show ((upsert k v t.entries).find? fun entry => entry.1 = k').map Prod.snd = _
  simp only [get?]
  induction t.entries with
  | nil => by_cases same : k = k' <;> simp [upsert, same]
  | cons entry rest ih =>
    obtain ⟨k₁, v₁⟩ := entry
    by_cases hit : k₁ = k
    · subst hit
      by_cases same : k₁ = k' <;> simp [upsert, same]
    · by_cases here : k₁ = k'
      · have other : ¬ k = k' := fun e => hit (here.trans e.symm)
        simp [upsert, here, other]
        split <;> simp_all
      · simp [upsert, hit, here, ih]

/-- An inserted value is found. -/
@[simp] theorem get?_insert_self (t : Table κ α) (k : κ) (v : α) :
    (t.insert k v).get? k = some v := by
  simp [get?_insert]

/-- Keys of a table after an insertion. -/
theorem keys_insert (t : Table κ α) (k : κ) (v : α) :
    (t.insert k v).keys = if k ∈ t.keys then t.keys else t.keys ++ [k] :=
  keys_upsert k v t.entries

/-- A table has a value for its keys and for no others. -/
theorem contains_iff_mem_keys (t : Table κ α) (k : κ) : t.contains k = true ↔ k ∈ t.keys := by
  simp [contains, get?, keys, List.find?_isSome]

end Table

end Rollup
