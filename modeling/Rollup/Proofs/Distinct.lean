import Mathlib.Data.List.Nodup
import Rollup.Distinct

/-!
# First occurrences in parts of a list

Keeping first occurrences commutes with keeping some of the keys and with taking images, and it may
be done in the parts of a list before it is done in the whole. In an ordered list, what remains of a
key comes before all that had it. Where a key stands for one element, it does not matter which
occurrence is the first.
-/

namespace Rollup.distinctBy

variable {α β κ : Type} [DecidableEq κ] {key : α → κ}

/-- Keys may be dropped before or after. -/
theorem filter_keys (keep : κ → Bool) (xs : List α) :
    (distinctBy key xs).filter (fun x => keep (key x)) =
      distinctBy key (xs.filter fun x => keep (key x)) := by
  induction xs with
  | nil => rfl
  | cons x xs ih =>
    by_cases kept : keep (key x) = true
    · simp only [distinctBy, List.filter_cons, kept, ↓reduceIte, ← ih, List.filter_filter]
      congr 1
      exact List.filter_congr fun y _ => Bool.and_comm _ _
    · simp only [distinctBy, List.filter_cons, kept, Bool.false_eq_true, ↓reduceIte, ← ih,
        List.filter_filter]
      -- whatever is kept differs from the dropped key
      refine List.filter_congr fun y _ => ?_
      by_cases same : key y = key x
      · simp [same, kept]
      · simp [same]

/-- Images are kept where they are taken of elements that are kept. -/
theorem map (f : β → α) (xs : List β) :
    distinctBy key (xs.map f) = (distinctBy (fun x => key (f x)) xs).map f := by
  induction xs with
  | nil => rfl
  | cons x xs ih =>
    rw [List.map_cons, distinctBy, ih, List.filter_map, distinctBy, List.map_cons]
    rfl

/-- Of two lists, the second keeps the keys that the first has not. -/
theorem append (xs ys : List α) :
    distinctBy key (xs ++ ys) =
      distinctBy key xs ++ (distinctBy key ys).filter fun y => key y ∉ xs.map key := by
  induction xs with
  | nil =>
    refine (List.filter_eq_self.2 fun y _ => ?_).symm
    simp
  | cons x xs ih =>
    rw [List.cons_append, distinctBy, ih, distinctBy, List.filter_append, List.filter_filter,
      List.cons_append]
    congr 2
    refine List.filter_congr fun y _ => ?_
    simp [not_or]

/-- A list without repeated keys stays as it is. -/
theorem of_nodup {xs : List α} (distinct : (xs.map key).Nodup) : distinctBy key xs = xs := by
  induction xs with
  | nil => rfl
  | cons x xs ih =>
    rw [List.map_cons, List.nodup_cons] at distinct
    rw [distinctBy, ih distinct.2, List.filter_eq_self.2]
    intro y later
    have other : key y ≠ key x := fun same => distinct.1 (same ▸ List.mem_map_of_mem later)
    simpa using other

/-- First occurrences may be kept in each part before the whole. -/
theorem flatMap (f : β → List α) (xs : List β) :
    distinctBy key (xs.flatMap fun x => distinctBy key (f x)) = distinctBy key (xs.flatMap f) := by
  induction xs with
  | nil => rfl
  | cons x xs ih =>
    rw [List.flatMap_cons, List.flatMap_cons, append, append, of_nodup (nodup_keys key (f x)), ih]
    congr 1
    refine List.filter_congr fun y _ => ?_
    rw [decide_eq_decide, mem_keys_iff]

variable {xs ys : List α}

/-- What remains of a key comes before everything else that had the key. -/
theorem first {R : α → α → Prop} (ordered : xs.Pairwise R) {x y : α}
    (kept : x ∈ distinctBy key xs) (given : y ∈ xs) (same : key y = key x) : x = y ∨ R x y := by
  induction xs with
  | nil => cases given
  | cons z xs ih =>
    obtain ⟨before, rest⟩ := List.pairwise_cons.1 ordered
    rw [distinctBy, List.mem_cons] at kept
    rcases kept with rfl | kept
    · rcases List.mem_cons.1 given with rfl | later
      · exact Or.inl rfl
      · exact Or.inr (before y later)
    · obtain ⟨kept, other⟩ := List.mem_filter.1 kept
      rcases List.mem_cons.1 given with rfl | later
      · exact absurd same.symm (of_decide_eq_true other)
      · exact ih rest kept later

/-- Where a key stands for one element, every element remains. -/
theorem mem_iff (unique : ∀ x ∈ xs, ∀ y ∈ xs, key x = key y → x = y) {x : α} :
    x ∈ distinctBy key xs ↔ x ∈ xs := by
  constructor
  · exact mem_of_mem
  · intro given
    obtain ⟨y, kept, same⟩ :=
      List.mem_map.1 ((mem_keys_iff key xs (key x)).2 (List.mem_map_of_mem given))
    rw [unique x given y (mem_of_mem kept) same.symm]
    exact kept

/-- Where a key stands for one element, the order does not matter to what remains. -/
theorem perm (unique : ∀ x ∈ xs, ∀ y ∈ xs, key x = key y → x = y) (same : xs.Perm ys) :
    (distinctBy key xs).Perm (distinctBy key ys) := by
  have unique' : ∀ x ∈ ys, ∀ y ∈ ys, key x = key y → x = y := fun x given y given' =>
    unique x (same.mem_iff.2 given) y (same.mem_iff.2 given')
  refine (List.perm_ext_iff_of_nodup (nodup_keys key xs).of_map (nodup_keys key ys).of_map).2 ?_
  intro x
  rw [mem_iff unique, mem_iff unique', same.mem_iff]

end Rollup.distinctBy
