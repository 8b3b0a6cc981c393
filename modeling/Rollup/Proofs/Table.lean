import Rollup.Table

/-!
# Growth of tables

An insertion under a new key comes last and leaves the earlier pairs alone. A look-up finds every
pair. A table made of pairs has the keys of its pairs; where pairs with one key agree, it has their
common value, whatever the order of the pairs.
-/

namespace Rollup

/-- With distinct keys, an element is the one that is found by its key. -/
theorem find?_eq_of_nodup {κ α : Type} [DecidableEq κ] (key : α → κ) {xs : List α} {x : α}
    (distinct : (xs.map key).Nodup) (held : x ∈ xs) :
    (xs.find? fun y => key y = key x) = some x := by
  obtain ⟨before, after, rfl⟩ := List.append_of_mem held
  refine List.find?_eq_some_iff_append.2 ⟨decide_eq_true rfl, before, after, rfl, ?_⟩
  intro y early
  rw [List.map_append, List.map_cons, List.nodup_append] at distinct
  have apart : key y ≠ key x :=
    distinct.2.2 (key y) (List.mem_map_of_mem early) (key x) List.mem_cons_self
  simpa using apart

namespace Table

variable {κ α : Type} [DecidableEq κ]

/-- A look-up finds every pair of a table under its key. -/
theorem get?_of_mem {t : Table κ α} {k : κ} {v : α} (held : (k, v) ∈ t.entries) :
    t.get? k = some v := by
  rw [get?, find?_eq_of_nodup Prod.fst t.nodup held, Option.map_some]

/-- Inserting a new key appends the pair. -/
theorem upsert_of_not_mem {k : κ} {entries : List (κ × α)} (v : α)
    (new : k ∉ entries.map Prod.fst) : upsert k v entries = entries ++ [(k, v)] := by
  induction entries with
  | nil => rfl
  | cons entry rest ih =>
    rw [List.map_cons, List.mem_cons, not_or] at new
    have other : ¬ entry.1 = k := fun same => new.1 same.symm
    rw [upsert, if_neg other, ih new.2, List.cons_append]

/-- The pairs of a table after the insertion of a new key. -/
theorem entries_insert_of_not_mem {t : Table κ α} {k : κ} (v : α) (new : k ∉ t.keys) :
    (t.insert k v).entries = t.entries ++ [(k, v)] :=
  upsert_of_not_mem v new

/-- After an insertion a table holds the inserted pair and pairs that it held before. -/
theorem mem_upsert {k : κ} {v : α} {entries : List (κ × α)} {entry : κ × α}
    (held : entry ∈ upsert k v entries) : entry = (k, v) ∨ entry ∈ entries := by
  induction entries with
  | nil => exact Or.inl (List.mem_singleton.1 held)
  | cons head rest ih =>
    unfold upsert at held
    split at held
    · rcases List.mem_cons.1 held with new | old
      · exact Or.inl new
      · exact Or.inr (List.mem_cons_of_mem head old)
    · rcases List.mem_cons.1 held with rfl | later
      · exact Or.inr List.mem_cons_self
      · exact (ih later).imp_right (List.mem_cons_of_mem head)

/-- An inserted key is a key. -/
theorem mem_keys_insert {t : Table κ α} {k k' : κ} {v : α} :
    k' ∈ (t.insert k v).keys ↔ k' ∈ t.keys ∨ k' = k := by
  rw [keys_insert]
  split
  · rename_i known
    constructor
    · exact Or.inl
    · rintro (old | rfl)
      · exact old
      · exact known
  · rw [List.mem_append, List.mem_singleton]

/-- Inserting pairs adds their keys and no others. -/
theorem mem_keys_insertAll {t : Table κ α} {pairs : List (κ × α)} {k : κ} :
    k ∈ (t.insertAll pairs).keys ↔ k ∈ t.keys ∨ k ∈ pairs.map Prod.fst := by
  induction pairs generalizing t with
  | nil => simp [insertAll]
  | cons pair rest ih =>
    have step : t.insertAll (pair :: rest) = (t.insert pair.1 pair.2).insertAll rest := rfl
    rw [step, ih, mem_keys_insert, List.map_cons, List.mem_cons, or_assoc]

/-- A table made of pairs has their keys and no others. -/
theorem contains_ofList_iff {pairs : List (κ × α)} {k : κ} :
    (ofList pairs).contains k = true ↔ k ∈ pairs.map Prod.fst := by
  rw [contains_iff_mem_keys, ofList, mem_keys_insertAll]
  simp [empty, keys]

/-- A look-up in a table made of pairs finds a value that came with the key. -/
theorem mem_of_get?_insertAll {t : Table κ α} {pairs : List (κ × α)} {k : κ} {v : α}
    (found : (t.insertAll pairs).get? k = some v) : t.get? k = some v ∨ (k, v) ∈ pairs := by
  induction pairs generalizing t with
  | nil => exact Or.inl found
  | cons pair rest ih =>
    have step : t.insertAll (pair :: rest) = (t.insert pair.1 pair.2).insertAll rest := rfl
    rw [step] at found
    rcases ih found with here | later
    · rw [get?_insert] at here
      split at here
      · rename_i same
        cases here
        exact Or.inr (by simp [← same])
      · exact Or.inl here
    · exact Or.inr (List.mem_cons_of_mem pair later)

/-- A look-up in a table made of pairs finds one of them. -/
theorem mem_of_get?_ofList {pairs : List (κ × α)} {k : κ} {v : α}
    (found : (ofList pairs).get? k = some v) : (k, v) ∈ pairs := by
  rcases mem_of_get?_insertAll found with none | pair
  · simp at none
  · exact pair

/-- After insertions a key has the last value that was inserted under it, or else its old one. -/
theorem get?_insertAll (t : Table κ α) (pairs : List (κ × α)) (k : κ) :
    (t.insertAll pairs).get? k = ((ofList pairs).get? k).or (t.get? k) := by
  induction pairs generalizing t with
  | nil => rfl
  | cons pair rest ih =>
    have step : t.insertAll (pair :: rest) = (t.insert pair.1 pair.2).insertAll rest := rfl
    have whole : ofList (pair :: rest) = (empty.insert pair.1 pair.2).insertAll rest := rfl
    rw [step, ih, whole, ih, Option.or_assoc, get?_insert, get?_insert, get?_empty]
    split <;> simp

/-- Of two lists of pairs, the later one has the last word on a key. -/
theorem get?_ofList_append (pairs later : List (κ × α)) (k : κ) :
    (ofList (pairs ++ later)).get? k = ((ofList later).get? k).or ((ofList pairs).get? k) := by
  have split : ofList (pairs ++ later) = (ofList pairs).insertAll later := by
    rw [ofList, ofList, insertAll, insertAll, insertAll, List.foldl_append]
  rw [split, get?_insertAll]

/-- A key of the later of two lists has one of the values that came with it there. -/
theorem mem_of_get?_ofList_append {pairs later : List (κ × α)} {k : κ} {v : α}
    (known : k ∈ later.map Prod.fst) (found : (ofList (pairs ++ later)).get? k = some v) :
    (k, v) ∈ later := by
  obtain ⟨w, last⟩ := Option.isSome_iff_exists.1 (contains_ofList_iff.2 known)
  rw [get?_ofList_append, last, Option.some_or] at found
  cases found
  exact mem_of_get?_ofList last

/-- A table made of pairs gives a key the value on which its pairs agree, and none to a key without
pairs. -/
theorem get?_ofList_eq {pairs : List (κ × α)} {k : κ} {value? : Option α}
    (agree : ∀ v, (k, v) ∈ pairs → value? = some v)
    (given : ∀ v, value? = some v → (k, v) ∈ pairs) : (ofList pairs).get? k = value? := by
  cases found : (ofList pairs).get? k with
  | some v => exact (agree v (mem_of_get?_ofList found)).symm
  | none =>
    cases value? with
    | none => rfl
    | some v =>
      have known : (ofList pairs).contains k = true :=
        contains_ofList_iff.2 (List.mem_map.2 ⟨(k, v), given v rfl, rfl⟩)
      rw [contains, found] at known
      cases known

/-- Tables made of the same pairs in two orders both give a key a value that came with it, or both
give it none. -/
theorem rel_get?_ofList {pairs others : List (κ × α)} (same : pairs.Perm others) (k : κ) :
    Option.Rel (fun v w => (k, v) ∈ pairs ∧ (k, w) ∈ pairs) ((ofList pairs).get? k)
      ((ofList others).get? k) := by
  have known : (ofList pairs).contains k = (ofList others).contains k := by
    rw [Bool.eq_iff_iff, contains_ofList_iff, contains_ofList_iff]
    exact (same.map Prod.fst).mem_iff
  unfold contains at known
  cases found : (ofList pairs).get? k with
  | none =>
    rw [found] at known
    rw [Option.isNone_iff_eq_none.1 (Option.isSome_eq_false_iff.1 known.symm)]
    exact .none
  | some v =>
    rw [found] at known
    obtain ⟨w, found'⟩ := Option.isSome_iff_exists.1 known.symm
    rw [found']
    exact .some ⟨mem_of_get?_ofList found, same.mem_iff.2 (mem_of_get?_ofList found')⟩

/-- Where the pairs of a key agree, their order does not matter to the key. -/
theorem get?_ofList_perm {pairs others : List (κ × α)} (same : pairs.Perm others) {k : κ}
    (agree : ∀ v w, (k, v) ∈ pairs → (k, w) ∈ pairs → v = w) :
    (ofList pairs).get? k = (ofList others).get? k := by
  have values := rel_get?_ofList same k
  generalize (ofList pairs).get? k = value?, (ofList others).get? k = other? at values
  cases values with
  | none => rfl
  | some both => rw [agree _ _ both.1 both.2]

/-- Inserting images of values makes look-ups find images. -/
theorem get?_insertAll_map {β : Type} (f : α → β) {t : Table κ α} {images : Table κ β}
    (start : ∀ k, images.get? k = (t.get? k).map f) (pairs : List (κ × α)) (k : κ) :
    (images.insertAll (pairs.map fun pair => (pair.1, f pair.2))).get? k =
      ((t.insertAll pairs).get? k).map f := by
  induction pairs generalizing t images with
  | nil => exact start k
  | cons pair rest ih =>
    have step : ∀ k, (images.insert pair.1 (f pair.2)).get? k =
        ((t.insert pair.1 pair.2).get? k).map f := by
      intro k
      rw [get?_insert, get?_insert, start]
      split <;> rfl
    exact ih step

/-- A table made of images of values has the images of the table made of the values. -/
theorem get?_ofList_map {β : Type} (f : α → β) (pairs : List (κ × α)) (k : κ) :
    (ofList (pairs.map fun pair => (pair.1, f pair.2))).get? k = ((ofList pairs).get? k).map f :=
  get?_insertAll_map f (fun _ => rfl) pairs k

end Table

end Rollup
