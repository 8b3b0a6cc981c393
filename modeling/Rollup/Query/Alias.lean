import Rollup.Query.Basic

/-!
# Names of results

Results are found by name, so names must not clash. Generated names are `alias-0`, `alias-1`, ...;
`freshAlias` takes the first that is not taken, and never one below an earlier choice. The search
is bounded by the number of taken names: distinct numbers generate distinct names, so that many
numbers cannot all be blocked.
-/

namespace Rollup.Query

/-- Name generated from a number. -/
def aliasName (k : Nat) : String := "alias-" ++ toString k

/-- Least number, from the next one to try, whose generated name is not taken. -/
def freshIndex (q : Query) : Nat :=
  ((List.range' q.nextAlias (q.takenNames.length + 1)).find? fun k =>
    !q.isNameTaken (aliasName k)).getD q.nextAlias

/-- A generated name that is not taken, and the query that remembers the choice. -/
def freshAlias (q : Query) : String × Query :=
  (aliasName q.freshIndex, { q with nextAlias := q.freshIndex + 1 })

/-- The preferred name if it is free, and a generated one otherwise. -/
def outputName (q : Query) (preferred? : Option String) : String × Query :=
  match preferred? with
  | some name => if q.isNameTaken name then q.freshAlias else (name, q)
  | none => q.freshAlias

/-- Different numbers generate different names. -/
theorem aliasName_injective {j k : Nat} (same : aliasName j = aliasName k) : j = k := by
  have chars : Nat.toDigits 10 j = Nat.toDigits 10 k := by
    simpa [aliasName, Nat.toString_eq_ofList_toDigits] using congrArg String.toList same
  have values := congrArg (Nat.ofDigitChars 10 · 0) chars
  simpa using values

/-- Some number among the first ones generates a free name. -/
theorem exists_free (q : Query) :
    ∃ k ∈ List.range' q.nextAlias (q.takenNames.length + 1),
      q.isNameTaken (aliasName k) = false := by
  refine Classical.byContradiction fun blocked => ?_
  have taken : ∀ name ∈ (List.range' q.nextAlias (q.takenNames.length + 1)).map aliasName,
      name ∈ q.takenNames := by
    intro name generated
    obtain ⟨k, tried, rfl⟩ := List.mem_map.1 generated
    have : ¬ q.isNameTaken (aliasName k) = false := fun free => blocked ⟨k, tried, free⟩
    simpa [isNameTaken] using this
  have distinct : ((List.range' q.nextAlias (q.takenNames.length + 1)).map aliasName).Nodup :=
    List.Pairwise.map aliasName (fun _ _ differ same => differ (aliasName_injective same))
      List.nodup_range'
  have bound := distinct.length_le_of_subset taken
  rw [List.length_map, List.length_range'] at bound
  omega

/-- The number that is found generates a free name, it is not below the next number to try, and
every number in between is blocked. -/
theorem freshIndex_spec (q : Query) :
    q.nextAlias ≤ q.freshIndex ∧ q.isNameTaken (aliasName q.freshIndex) = false ∧
      ∀ k, q.nextAlias ≤ k → k < q.freshIndex → q.isNameTaken (aliasName k) = true := by
  obtain ⟨free, tried, isFree⟩ := q.exists_free
  cases search : (List.range' q.nextAlias (q.takenNames.length + 1)).find? fun k =>
      !q.isNameTaken (aliasName k) with
  | none =>
    have := List.find?_eq_none.1 search free tried
    simp [isFree] at this
  | some k =>
    have index : q.freshIndex = k := by simp [freshIndex, search]
    rw [List.find?_range'_eq_some] at search
    obtain ⟨chosen, inside, before⟩ := search
    rw [index]
    refine ⟨by simp [List.mem_range'] at inside; omega, by simpa using chosen, ?_⟩
    intro j low high
    simpa using before j low high

/-- A generated name is free. -/
theorem not_isNameTaken_freshAlias (q : Query) : q.isNameTaken q.freshAlias.1 = false :=
  q.freshIndex_spec.2.1

/-- The chosen name is free. -/
theorem not_isNameTaken_outputName (q : Query) (preferred? : Option String) :
    q.isNameTaken (q.outputName preferred?).1 = false := by
  unfold outputName
  split
  · split
    · exact q.not_isNameTaken_freshAlias
    · rename_i free
      simpa using free
  · exact q.not_isNameTaken_freshAlias

end Rollup.Query
