import Rollup.Lowering.Aggregate
import Rollup.Lowering.Dimension
import Rollup.Proofs.Table

/-!
# Growth of a query

Lowering never takes anything back: a query only gains dimensions, aggregations, post-aggregations
and result columns, each under a name that was free. `Query.Chooses` says what the choice of a name
is, and `Query.Extends` is the order that all steps follow.
-/

namespace Rollup

namespace Query

/-- The chosen name is free, and the query that remembers the choice differs at most in the number
of the next generated name to try. -/
structure Chooses (q : Query) (choice : String × Query) : Prop where
  free : choice.1 ∉ q.takenNames
  kept : ∃ k, choice.2 = { q with nextAlias := k }

/-- A name that is not taken is none of the taken names. -/
theorem isNameTaken_eq_false_iff {q : Query} {name : String} :
    q.isNameTaken name = false ↔ name ∉ q.takenNames := by
  rw [isNameTaken, ← Bool.not_eq_true, List.contains_iff_mem]

/-- A free name is not that of a result column. -/
theorem Chooses.not_mem_keys {q : Query} {choice : String × Query} (chosen : q.Chooses choice) :
    choice.1 ∉ q.results.keys :=
  fun known => chosen.free (List.mem_append_left _ known)

/-- A free name is not that of a result. -/
theorem Chooses.not_mem_resultNames {q : Query} {choice : String × Query}
    (chosen : q.Chooses choice) : choice.1 ∉ q.resultNames :=
  fun known => chosen.free (List.mem_append_right _ known)

/-- A generated name is a choice. -/
theorem chooses_freshAlias (q : Query) : q.Chooses q.freshAlias where
  free := isNameTaken_eq_false_iff.1 q.not_isNameTaken_freshAlias
  kept := ⟨q.freshIndex + 1, rfl⟩

/-- The preferred name or its substitute is a choice. -/
theorem chooses_outputName (q : Query) (preferred? : Option String) :
    q.Chooses (q.outputName preferred?) where
  free := isNameTaken_eq_false_iff.1 (q.not_isNameTaken_outputName preferred?)
  kept := by
    unfold outputName
    split
    · split
      · exact q.chooses_freshAlias.kept
      · exact ⟨q.nextAlias, rfl⟩
    · exact q.chooses_freshAlias.kept

/-- The first query is a beginning of the second. -/
structure Extends (q q' : Query) : Prop where
  relation : q'.relation = q.relation
  dimensions : q.dimensions <+: q'.dimensions
  aggregations : q.aggregations <+: q'.aggregations
  postAggregations : q.postAggregations <+: q'.postAggregations
  results : q.results.entries <+: q'.results.entries

namespace Extends

/-- A query is a beginning of itself. -/
theorem refl (q : Query) : q.Extends q where
  relation := rfl
  dimensions := List.prefix_rfl
  aggregations := List.prefix_rfl
  postAggregations := List.prefix_rfl
  results := List.prefix_rfl

/-- A beginning of a beginning is a beginning. -/
theorem trans {q q' q'' : Query} (first : q.Extends q') (second : q'.Extends q'') :
    q.Extends q'' where
  relation := second.relation.trans first.relation
  dimensions := first.dimensions.trans second.dimensions
  aggregations := first.aggregations.trans second.aggregations
  postAggregations := first.postAggregations.trans second.postAggregations
  results := first.results.trans second.results

end Extends

end Query

namespace Scope

/-- Computes an average as the quotient of a sum and a count, each under a generated name. -/
def addAverage (q : Query) (call : AggregateCall) (sum count : String → Aggregation) : Query :=
  let (sumName, q) := q.freshAlias
  let q := q.addAggregation (sum sumName)
  let (countName, q) := q.freshAlias
  let q := q.addAggregation (count countName)
  addQuotient q call sumName countName

/-- An aggregation that takes the name it is given. -/
def TakesName (aggregation : String → Aggregation) : Prop :=
  ∀ name, (aggregation name).name = name

/-- A row count takes the name it is given. -/
theorem takesName_rowCount (r : Relation) : TakesName (rowCount r) := by
  intro name
  unfold rowCount
  split <;> rfl

/-- A count of distinct values takes the name it is given. -/
theorem takesName_of_distinctCount? {r : Relation} {column : Column}
    {aggregation : String → Aggregation} (found : distinctCount? r column = some aggregation) :
    TakesName aggregation := by
  intro name
  unfold distinctCount? at found
  split at found
  · cases found
    rfl
  · split at found
    · cases found
      rfl
    · cases found

/-- Result column of a grouping expression. -/
def groupColumn (name : String) (group : Expr) (storeType : StoreType) : ResultColumn :=
  { name, expr := group, storeType, hostType := group.dataType }

/-- Result column of an aggregate. -/
def callColumn (name : String) (call : AggregateCall) (storeType : StoreType) : ResultColumn :=
  { name, expr := call.toExpr, storeType, hostType := call.dataType }

/-- Recording a dimension under a free name appends it and its result column. -/
theorem recordDimension_eq {q : Query} {choice : String × Query} (chosen : q.Chooses choice)
    {d : Dimension} (named : d.outputName = choice.1) (group : Expr) (storeType : StoreType) :
    (recordDimension choice.2 d group storeType).relation = q.relation ∧
    (recordDimension choice.2 d group storeType).dimensions = q.dimensions ++ [d] ∧
    (recordDimension choice.2 d group storeType).aggregations = q.aggregations ∧
    (recordDimension choice.2 d group storeType).postAggregations = q.postAggregations ∧
    (recordDimension choice.2 d group storeType).results.entries =
      q.results.entries ++ [(choice.1, groupColumn choice.1 group storeType)] := by
  obtain ⟨k, kept⟩ := chosen.kept
  rw [kept]
  refine ⟨rfl, rfl, rfl, rfl, ?_⟩
  show (q.results.insert d.outputName (groupColumn d.outputName group storeType)).entries = _
  rw [named, Table.entries_insert_of_not_mem _ chosen.not_mem_keys]

/-- Computing an aggregate by one aggregation appends it and its result column. -/
theorem results_addCall (q : Query) (call : AggregateCall) (aggregation : String → Aggregation)
    (storeType : StoreType) :
    (addCall q call aggregation storeType).results.entries =
      q.results.entries ++ [(q.freshAlias.1, callColumn q.freshAlias.1 call storeType)] :=
  Table.entries_insert_of_not_mem _ q.chooses_freshAlias.not_mem_keys

/-- Computing an average appends a sum, a count, their quotient and its result column. -/
theorem addAverage_eq (q : Query) (call : AggregateCall) (sum count : String → Aggregation) :
    ∃ sumName countName name,
      (addAverage q call sum count).aggregations =
        q.aggregations ++ [sum sumName, count countName] ∧
      (addAverage q call sum count).postAggregations =
        q.postAggregations ++ [.division name sumName countName] ∧
      (addAverage q call sum count).results.entries =
        q.results.entries ++ [(name, callColumn name call .double)] :=
  ⟨_, _, _, List.append_assoc _ [_] [_], rfl,
    Table.entries_insert_of_not_mem _ (Query.chooses_freshAlias _).not_mem_keys⟩

end Scope

end Rollup
