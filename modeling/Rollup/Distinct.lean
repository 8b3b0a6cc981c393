/-!
# First occurrences

`distinctBy key` keeps, of the elements that share a key, the first. What remains is in the old
order, has pairwise different keys, and has the same keys as before.
-/

namespace Rollup

variable {α κ : Type} [DecidableEq κ]

/-- Keeps the first element of each key. -/
def distinctBy (key : α → κ) : List α → List α
  | [] => []
  | x :: xs => x :: (distinctBy key xs).filter fun y => key y ≠ key x

namespace distinctBy

/-- Nothing remains of nothing. -/
@[simp] theorem nil (key : α → κ) : distinctBy key [] = [] := rfl

/-- Elements are dropped, never added or moved. -/
theorem sublist (key : α → κ) (xs : List α) : (distinctBy key xs).Sublist xs := by
  induction xs with
  | nil => exact List.Sublist.slnil
  | cons x xs ih => exact (List.filter_sublist.trans ih).cons_cons x

/-- What remains was there before. -/
theorem mem_of_mem {key : α → κ} {xs : List α} {x : α} (kept : x ∈ distinctBy key xs) :
    x ∈ xs :=
  (sublist key xs).subset kept

/-- A key remains exactly if some element had it. -/
theorem mem_keys_iff (key : α → κ) (xs : List α) (k : κ) :
    k ∈ (distinctBy key xs).map key ↔ k ∈ xs.map key := by
  induction xs with
  | nil => simp
  | cons x xs ih =>
    by_cases first : k = key x
    · simp [distinctBy, first]
    · have ih' : (∃ a, a ∈ distinctBy key xs ∧ key a = k) ↔ ∃ a, a ∈ xs ∧ key a = k := by
        simpa using ih
      simp only [distinctBy, List.map_cons, List.mem_cons, first, false_or, List.mem_map,
        List.mem_filter, decide_eq_true_eq]
      constructor
      · rintro ⟨a, ⟨kept, -⟩, rfl⟩
        exact ih'.1 ⟨a, kept, rfl⟩
      · intro found
        obtain ⟨a, kept, rfl⟩ := ih'.2 found
        exact ⟨a, ⟨kept, first⟩, rfl⟩

/-- No key remains twice. -/
theorem nodup_keys (key : α → κ) (xs : List α) : ((distinctBy key xs).map key).Nodup := by
  induction xs with
  | nil => simp
  | cons x xs ih =>
    simp only [distinctBy, List.map_cons, List.nodup_cons, List.mem_map, List.mem_filter,
      decide_eq_true_eq, not_exists, not_and]
    exact ⟨fun a kept same => kept.2 same, ih.sublist (List.filter_sublist.map key)⟩

end distinctBy

end Rollup
