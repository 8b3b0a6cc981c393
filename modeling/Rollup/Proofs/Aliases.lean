import Mathlib.Order.Bounds.Basic
import Rollup.Proofs.Growth

/-!
# Generated names

A name is generated by trying one number after the other until the name of a number is free. Nothing
bounds this search from outside: it ends because different numbers generate different names, and a
query holds finitely many names. It finds the least number that is not below the next one to try,
and the query then goes on behind that number. So the numbers of the names that are generated while
one query grows are strictly increasing, and no name is generated twice, whether or not anything was
recorded under it.
-/

namespace Rollup.Query

/-! ## One search -/

/-- The search for a free name that begins with the number `start`: it ends with the number `k`
after so many tries. A try ends the search if the name is free, and otherwise leads to the next
number. -/
inductive Search (q : Query) : (start k tries : Nat) → Prop where
  | free {k : Nat} (free : aliasName k ∉ q.takenNames) : q.Search k k 1
  | taken {start k tries : Nat} (taken : aliasName start ∈ q.takenNames)
      (rest : q.Search (start + 1) k tries) : q.Search start k (tries + 1)

/-- Numbers, from one on, whose names are free. -/
def freeIndices (q : Query) (start : Nat) : Set Nat :=
  {k | start ≤ k ∧ aliasName k ∉ q.takenNames}

/-- If the name of the first number is taken, the least free number is among the later ones. -/
theorem isLeast_freeIndices_succ_iff {q : Query} {start k : Nat}
    (taken : aliasName start ∈ q.takenNames) :
    IsLeast (q.freeIndices (start + 1)) k ↔ IsLeast (q.freeIndices start) k := by
  have same : q.freeIndices (start + 1) = q.freeIndices start := by
    ext j
    constructor
    · rintro ⟨later, free⟩
      exact ⟨Nat.le_of_succ_le later, free⟩
    · rintro ⟨later, free⟩
      have other : start ≠ j := fun first => free (first ▸ taken)
      exact ⟨Nat.lt_of_le_of_ne later other, free⟩
  rw [same]

/-- A search ends with the least free number, after one try for each number up to there. -/
theorem search_iff {q : Query} {start k tries : Nat} :
    q.Search start k tries ↔ IsLeast (q.freeIndices start) k ∧ start + tries = k + 1 := by
  constructor
  · intro search
    induction search with
    | @free k free => exact ⟨⟨⟨Nat.le_refl k, free⟩, fun j found => found.1⟩, rfl⟩
    | @taken start k tries taken rest ih =>
      obtain ⟨least, count⟩ := ih
      exact ⟨(isLeast_freeIndices_succ_iff taken).1 least, by omega⟩
  · rintro ⟨least, count⟩
    -- one try less is left at every number, and none would be left behind the least free one
    induction tries generalizing start with
    | zero =>
      have reached := least.1.1
      omega
    | succ tries ih =>
      by_cases taken : aliasName start ∈ q.takenNames
      · exact .taken taken (ih ((isLeast_freeIndices_succ_iff taken).2 least) (by omega))
      · have first : k = start :=
          Nat.le_antisymm (least.2 ⟨Nat.le_refl start, taken⟩) least.1.1
        have once : tries = 0 := by omega
        rw [first, once]
        exact .free taken

/-- The number of the generated name is the least free one. -/
theorem isLeast_freshIndex (q : Query) : IsLeast (q.freeIndices q.nextAlias) q.freshIndex := by
  obtain ⟨later, free, before⟩ := q.freshIndex_spec
  refine ⟨⟨later, isNameTaken_eq_false_iff.1 free⟩, ?_⟩
  rintro k ⟨tried, unused⟩
  by_contra smaller
  have taken := before k tried (Nat.lt_of_not_le smaller)
  rw [isNameTaken_eq_false_iff.2 unused] at taken
  cases taken

/-- At most as many numbers are passed over as the query holds names. -/
theorem freshIndex_le (q : Query) : q.freshIndex ≤ q.nextAlias + q.takenNames.length := by
  obtain ⟨k, near, free⟩ := q.exists_free
  obtain ⟨low, high⟩ := List.mem_range'_1.1 near
  have least := q.isLeast_freshIndex.2 ⟨low, isNameTaken_eq_false_iff.1 free⟩
  omega

/-! ## Names along a run -/

/-- A step in the making of a query: it asks for a name, or it adds a part under any name. -/
inductive Step where
  | freshAlias
  | outputName (preferred? : Option String)
  | addDimension (d : Dimension)
  | addAggregation (a : Aggregation)
  | addPostAggregation (p : PostAggregation)
  | addResult (r : ResultColumn)

namespace Step

/-- The query after a step. -/
def apply (q : Query) : Step → Query
  | freshAlias => q.freshAlias.2
  | outputName preferred? => (q.outputName preferred?).2
  | addDimension d => q.addDimension d
  | addAggregation a => q.addAggregation a
  | addPostAggregation p => q.addPostAggregation p
  | addResult r => q.addResult r

/-- The name that a step generates. A preferred name that is granted is not generated. -/
def generated? (q : Query) : Step → Option String
  | freshAlias => some q.freshAlias.1
  | outputName preferred? =>
    let name := (q.outputName preferred?).1
    if preferred? = some name then none else some name
  | addDimension _ | addAggregation _ | addPostAggregation _ | addResult _ => none

end Step

/-- Names that are generated by the steps of a run, in order. -/
def generated (q : Query) : List Step → List String
  | [] => []
  | step :: rest => (step.generated? q).toList ++ generated (step.apply q) rest

/-- A preferred name is granted, or a name is generated that is not the preferred one. -/
theorem outputName_cases (q : Query) (preferred? : Option String) :
    (∃ name, preferred? = some name ∧ q.outputName preferred? = (name, q)) ∨
      (preferred? ≠ some q.freshAlias.1 ∧ q.outputName preferred? = q.freshAlias) := by
  cases preferred? with
  | none => exact Or.inr ⟨(Option.some_ne_none _).symm, rfl⟩
  | some name =>
    by_cases taken : q.isNameTaken name = true
    · refine Or.inr ⟨?_, by rw [outputName, if_pos taken]⟩
      rintro ⟨⟩
      rw [q.not_isNameTaken_freshAlias] at taken
      cases taken
    · exact Or.inl ⟨name, rfl, by rw [outputName, if_neg taken]⟩

/-- A step generates no name and keeps the next number to try, or it generates the name of a number
from there on and goes on behind that number. -/
theorem Step.generated?_cases (q : Query) (step : Step) :
    (step.generated? q = none ∧ (step.apply q).nextAlias = q.nextAlias) ∨
      ∃ k, q.nextAlias ≤ k ∧ step.generated? q = some (aliasName k) ∧
        (step.apply q).nextAlias = k + 1 := by
  have later : q.nextAlias ≤ q.freshIndex := q.freshIndex_spec.1
  cases step with
  | freshAlias => exact Or.inr ⟨q.freshIndex, later, rfl, rfl⟩
  | outputName preferred? =>
    rcases q.outputName_cases preferred? with ⟨name, rfl, granted⟩ | ⟨other, fresh⟩
    · exact Or.inl (by simp only [generated?, apply, granted, if_true, and_self])
    · refine Or.inr ⟨q.freshIndex, later, ?_, ?_⟩
      · simp only [generated?, fresh, if_neg other]
        rfl
      · rw [apply, fresh]
        rfl
  | addDimension | addAggregation | addPostAggregation | addResult => exact Or.inl ⟨rfl, rfl⟩

/-- The names that a run generates are those of numbers that increase strictly from the next one to
try. -/
theorem exists_generated_eq (q : Query) (steps : List Step) :
    ∃ numbers : List Nat, q.generated steps = numbers.map aliasName ∧
      numbers.Pairwise (· < ·) ∧ ∀ k ∈ numbers, q.nextAlias ≤ k := by
  induction steps generalizing q with
  | nil => exact ⟨[], rfl, .nil, fun k held => absurd held List.not_mem_nil⟩
  | cons step rest ih =>
    obtain ⟨numbers, names, increasing, later⟩ := ih (step.apply q)
    rcases step.generated?_cases q with ⟨silent, kept⟩ | ⟨k, first, named, behind⟩
    · rw [kept] at later
      exact ⟨numbers, by rw [generated, silent, names]; rfl, increasing, later⟩
    · rw [behind] at later
      refine ⟨k :: numbers, by rw [generated, named, names]; rfl, .cons later increasing, ?_⟩
      rw [List.forall_mem_cons]
      refine ⟨first, ?_⟩
      intro j held
      have := later j held
      omega

/-- Alias generation terminates and is fresh. The search for a free name has one outcome. It ends
after at most one try more than the query holds names, with the least number from the next one to
try whose name is free; the name of this number is generated, and only the next number to try is
changed. Along every run of steps from a query, no name is generated twice. -/
theorem search_freshAlias_and_nodup_generated (q : Query) :
    (∃ k tries, (∀ k' tries', q.Search q.nextAlias k' tries' ↔ k' = k ∧ tries' = tries) ∧
      tries ≤ q.takenNames.length + 1 ∧ IsLeast (q.freeIndices q.nextAlias) k ∧
      q.freshAlias = (aliasName k, { q with nextAlias := k + 1 })) ∧
    ∀ steps : List Step, (q.generated steps).Nodup := by
  constructor
  · have least := q.isLeast_freshIndex
    have near := q.freshIndex_le
    have later : q.nextAlias ≤ q.freshIndex := least.1.1
    refine ⟨q.freshIndex, q.freshIndex + 1 - q.nextAlias, ?_, by omega, least, rfl⟩
    intro k tries
    rw [search_iff]
    constructor
    · rintro ⟨found, count⟩
      have same : k = q.freshIndex := found.unique least
      exact ⟨same, by omega⟩
    · rintro ⟨rfl, rfl⟩
      exact ⟨least, by omega⟩
  · intro steps
    obtain ⟨numbers, names, increasing, -⟩ := q.exists_generated_eq steps
    rw [names]
    exact List.Pairwise.map aliasName
      (fun i j smaller same => Nat.ne_of_lt smaller (aliasName_injective same)) increasing

-- a name that is taken is passed over, and one that is granted does not count as generated
example (r : Relation) :
    generated { relation := r, aggregations := [.native .count "alias-1" none] }
      [.freshAlias, .outputName (some "alias-1"), .outputName (some "alias-7"), .freshAlias] =
      ["alias-0", "alias-2", "alias-3"] := by
  cbv

end Rollup.Query
