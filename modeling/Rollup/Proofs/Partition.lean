import Mathlib.Data.List.Nodup
import Rollup.Distinct

/-!
# Groups

`groupsBy key` sorts the elements of a list into groups, one for each key that occurs. Where every
row of a table is written once for each of several branches, and the key tells the branches apart,
the groups of all that is written are those of the table under each branch.
-/

namespace Rollup

variable {α β ρ κ κ' τ : Type} [DecidableEq κ] [DecidableEq κ']

/-- The keys that occur, each with the elements that have it. -/
def groupsBy (key : α → κ) (xs : List α) : List (κ × List α) :=
  (distinctBy key xs).map fun x => (key x, xs.filter fun y => key y = key x)

namespace groupsBy

/-- The groups are those of the elements. -/
theorem mem_iff {key : α → κ} {xs : List α} {group : κ × List α} :
    group ∈ groupsBy key xs ↔
      ∃ x ∈ xs, group = (key x, xs.filter fun y => key y = key x) := by
  constructor
  · intro held
    obtain ⟨x, kept, rfl⟩ := List.mem_map.1 held
    exact ⟨x, distinctBy.mem_of_mem kept, rfl⟩
  · rintro ⟨x, held, rfl⟩
    obtain ⟨first, kept, same⟩ := List.mem_map.1
      ((distinctBy.mem_keys_iff key xs (key x)).2 (List.mem_map_of_mem held))
    exact List.mem_map.2 ⟨first, kept, by rw [same]⟩

/-- Different groups have different keys. -/
theorem nodup_keys (key : α → κ) (xs : List α) : ((groupsBy key xs).map Prod.fst).Nodup := by
  rw [groupsBy, List.map_map]
  exact distinctBy.nodup_keys key xs

/-- Keys may be renamed before or after, if different keys keep different names. -/
theorem map_keys (key : α → κ) (xs : List α) (rename : κ → κ')
    (faithful : ∀ x ∈ xs, ∀ y ∈ xs, rename (key x) = rename (key y) → key x = key y) :
    (groupsBy key xs).map (fun group => (rename group.1, group.2)) =
      groupsBy (fun x => rename (key x)) xs := by
  have sameKey : ∀ x ∈ xs, ∀ y ∈ xs, (rename (key x) = rename (key y)) = (key x = key y) :=
    fun x held y other => propext ⟨faithful x held y other, congrArg rename⟩
  have sameFirst (part : List α) (inside : ∀ x ∈ part, x ∈ xs) :
      distinctBy (fun x => rename (key x)) part = distinctBy key part := by
    induction part with
    | nil => rfl
    | cons x rest ih =>
      rw [distinctBy, distinctBy, ih fun y later => inside y (List.mem_cons_of_mem x later)]
      congr 1
      refine List.filter_congr fun y later => ?_
      have held : y ∈ xs :=
        inside y (List.mem_cons_of_mem x (distinctBy.mem_of_mem later))
      rw [decide_eq_decide, ne_eq, ne_eq, sameKey y held x (inside x List.mem_cons_self)]
  rw [groupsBy, groupsBy, List.map_map, sameFirst xs fun x held => held]
  refine List.map_congr_left fun x kept => ?_
  have held : x ∈ xs := distinctBy.mem_of_mem kept
  simp only [Function.comp_apply, Prod.mk.injEq, true_and]
  exact List.filter_congr fun y other => by rw [decide_eq_decide, sameKey y other x held]

section Branches

variable {key : β → ρ → κ} {tag : β → τ} {branches : List β}

/-- Everything that is written for a table: each row under each branch. -/
def written (branches : List β) (rows : List ρ) : List (β × ρ) :=
  rows.flatMap fun row => branches.map fun branch => (branch, row)

/-- A row of the table is written under every branch. -/
theorem mem_written {rows : List ρ} {x : β × ρ} :
    x ∈ written branches rows ↔ x.1 ∈ branches ∧ x.2 ∈ rows := by
  simp only [written, List.mem_flatMap, List.mem_map]
  constructor
  · rintro ⟨row, held, branch, given, rfl⟩
    exact ⟨given, held⟩
  · rintro ⟨given, held⟩
    exact ⟨x.2, held, x.1, given, rfl⟩

section Tagged

variable {read : κ → τ} (tagged : ∀ branch ∈ branches, ∀ row, read (key branch row) = tag branch)
  (apart : branches.Pairwise fun a b => tag a ≠ tag b)

include tagged apart

/-- A key that is tagged for a branch is had by a row under no other branch. -/
theorem filter_branches {branch : β} (given : branch ∈ branches) {k : κ} (own : read k = tag branch)
    (row : ρ) :
    (branches.filter fun other => key other row = k) =
      if key branch row = k then [branch] else [] := by
  obtain ⟨before, after, rfl⟩ := List.append_of_mem given
  have others : ∀ other ∈ before ++ after, ¬ key other row = k := by
    intro other listed same
    have sameTag : tag other = tag branch := by
      rw [← tagged other (by grind) row, same, own]
    rw [List.pairwise_append, List.pairwise_cons] at apart
    rcases List.mem_append.1 listed with early | late
    · exact apart.2.2 other early branch List.mem_cons_self sameTag
    · exact apart.2.1.1 other late sameTag.symm
  have none : ∀ part : List β, (∀ other ∈ part, other ∈ before ++ after) →
      (part.filter fun other => key other row = k) = [] := fun part inside =>
    List.filter_eq_nil_iff.2 fun other listed => by simpa using others other (inside other listed)
  rw [List.filter_append, List.filter_cons, none before fun _ => List.mem_append_left after,
    none after fun _ => List.mem_append_right before, List.nil_append]
  simp only [decide_eq_true_eq]

/-- What is written under a key that is tagged for a branch are the rows with that key under the
branch. -/
theorem filter_written {branch : β} (given : branch ∈ branches) {k : κ} (own : read k = tag branch)
    (rows : List ρ) :
    ((written branches rows).filter fun x => key x.1 x.2 = k).map Prod.snd =
      rows.filter fun row => key branch row = k := by
  induction rows with
  | nil => rfl
  | cons row rest ih =>
    have here : ((branches.map fun branch => (branch, row)).filter fun x => key x.1 x.2 = k) =
        (branches.filter fun other => key other row = k).map fun branch => (branch, row) :=
      List.filter_map
    rw [written, List.flatMap_cons, List.filter_append, List.map_append, here,
      filter_branches tagged apart given own row, List.filter_cons, ← ih]
    by_cases same : key branch row = k
    · simp only [same, ↓reduceIte, List.map_cons, List.map_nil, decide_true]
      rfl
    · simp only [same, ↓reduceIte, List.map_nil, List.nil_append, decide_false,
        Bool.false_eq_true]
      rfl

/-- Groups of different branches have different keys. -/
theorem nodup_branches (rows : List ρ) :
    (branches.flatMap fun branch => groupsBy (key branch) rows).Nodup := by
  refine List.nodup_flatMap.2 ⟨fun branch _ => (nodup_keys (key branch) rows).of_map, ?_⟩
  refine apart.imp_of_mem fun {a b} givenA givenB differ group heldA heldB => differ ?_
  obtain ⟨x, -, rfl⟩ := mem_iff.1 heldA
  obtain ⟨y, -, same⟩ := mem_iff.1 heldB
  rw [← tagged a givenA x, ← tagged b givenB y]
  exact congrArg read (congrArg Prod.fst same)

/-- The groups of everything that is written for a table are those of the table under each
branch. -/
theorem perm_written (rows : List ρ) :
    ((groupsBy (fun x => key x.1 x.2) (written branches rows)).map fun group =>
      (group.1, group.2.map Prod.snd)).Perm
        (branches.flatMap fun branch => groupsBy (key branch) rows) := by
  have distinct : ((groupsBy (fun x => key x.1 x.2) (written branches rows)).map fun group =>
      (group.1, group.2.map Prod.snd)).Nodup := by
    refine List.Nodup.of_map Prod.fst ?_
    rw [List.map_map]
    exact nodup_keys _ _
  -- neither list repeats a group, so it is enough that they have the same ones
  refine (List.perm_ext_iff_of_nodup distinct (nodup_branches tagged apart rows)).2 fun group => ?_
  simp only [List.mem_map, List.mem_flatMap, mem_iff]
  constructor
  · rintro ⟨_, ⟨x, held, rfl⟩, rfl⟩
    obtain ⟨given, inside⟩ := mem_written.1 held
    refine ⟨x.1, given, x.2, inside, ?_⟩
    rw [filter_written tagged apart given (tagged x.1 given x.2)]
  · rintro ⟨branch, given, row, inside, rfl⟩
    refine ⟨_, ⟨(branch, row), mem_written.2 ⟨given, inside⟩, rfl⟩, ?_⟩
    rw [filter_written tagged apart given (tagged branch given row)]

end Tagged

end Branches

end groupsBy

end Rollup
