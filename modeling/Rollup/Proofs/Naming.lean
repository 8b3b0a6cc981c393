import Rollup.Proofs.Lowered

/-!
# Names in a pushed query

Results are found by name. A query is well named if its results have pairwise different names, if
its result columns are kept under their own names and stand for results that the query computes,
and if everything that refers to a result by name refers to one that exists. Every step of the
lowering keeps a query well named, whatever names the host chose and whatever the scripts are.
-/

namespace Rollup

namespace Query

/-- The names of a query are unambiguous and closed. -/
structure WellNamed (q : Query) : Prop where
  /-- No two results share a name. -/
  distinct : q.resultNames.Nodup
  /-- A result column is kept under its own name, which is that of a result. -/
  stored : ∀ entry ∈ q.results.entries, entry.2.name = entry.1 ∧ entry.1 ∈ q.resultNames
  /-- Every dimension has a result column. -/
  recorded : ∀ d ∈ q.dimensions, ∃ r, q.result? d.outputName = some r
  /-- A post-aggregation divides one aggregation by another. -/
  divided : ∀ post ∈ q.postAggregations, ∃ a ∈ q.aggregations, ∃ b ∈ q.aggregations,
    a.name ≠ b.name ∧ post.fields = [a.name, b.name]

/-- A query without dimensions, aggregations and results is well named. -/
theorem wellNamed_empty (r : Relation) : WellNamed { relation := r } where
  distinct := List.nodup_nil
  stored := fun _ held => absurd held List.not_mem_nil
  recorded := fun _ held => absurd held List.not_mem_nil
  divided := fun _ held => absurd held List.not_mem_nil

/-- One more dimension brings one more result name. -/
theorem resultNames_addDimension (q : Query) (d : Dimension) :
    (q.addDimension d).resultNames.Perm (d.outputName :: q.resultNames) := by
  simp only [resultNames, addDimension, List.map_append, List.map_cons, List.map_nil,
    List.append_assoc]
  exact List.perm_middle

/-- One more aggregation brings one more result name. -/
theorem resultNames_addAggregation (q : Query) (a : Aggregation) :
    (q.addAggregation a).resultNames.Perm (a.name :: q.resultNames) := by
  simp only [resultNames, addAggregation, List.map_append, List.map_cons, List.map_nil]
  rw [← List.append_assoc (q.dimensions.map _), List.append_assoc _ [a.name]]
  exact List.perm_middle

/-- One more post-aggregation brings one more result name. -/
theorem resultNames_addPostAggregation (q : Query) (post : PostAggregation) :
    (q.addPostAggregation post).resultNames.Perm (post.name :: q.resultNames) := by
  simp only [resultNames, addPostAggregation, List.map_append, List.map_cons, List.map_nil]
  rw [← List.append_assoc]
  exact List.perm_append_singleton _ _

/-- A name that is taken as a result column has one. -/
theorem exists_result?_iff {q : Query} {name : String} :
    (∃ r, q.result? name = some r) ↔ name ∈ q.results.keys := by
  rw [← Table.contains_iff_mem_keys, Table.contains, Option.isSome_iff_exists]
  rfl

/-- An identity has a result column exactly if a result column stands for an expression of that
identity. -/
theorem exists_resultFor?_iff {q : Query} {id : ExprId} :
    (∃ r, q.resultFor? id = some r) ↔
      ∃ e ∈ q.results.values.map ResultColumn.expr, e.outputId? = some id := by
  rw [resultFor?, ← Option.isSome_iff_exists, List.find?_isSome]
  simp

namespace WellNamed

variable {q : Query}

/-- Remembering the number of a generated name changes no name. -/
theorem remember (well : q.WellNamed) (k : Nat) : WellNamed { q with nextAlias := k } :=
  ⟨well.distinct, well.stored, well.recorded, well.divided⟩

/-- An aggregation under a free name keeps a query well named. -/
theorem addAggregation (well : q.WellNamed) {a : Aggregation} (free : a.name ∉ q.resultNames) :
    (q.addAggregation a).WellNamed := by
  have names := q.resultNames_addAggregation a
  refine ⟨?_, ?_, well.recorded, ?_⟩
  · rw [names.nodup_iff, List.nodup_cons]
    exact ⟨free, well.distinct⟩
  · intro entry held
    obtain ⟨own, known⟩ := well.stored entry held
    exact ⟨own, names.mem_iff.2 (List.mem_cons_of_mem _ known)⟩
  · intro post held
    obtain ⟨x, xs, y, ys, apart, fields⟩ := well.divided post held
    exact ⟨x, List.mem_append_left _ xs, y, List.mem_append_left _ ys, apart, fields⟩

/-- A quotient of two aggregations under a free name keeps a query well named. -/
theorem addPostAggregation (well : q.WellNamed) {post : PostAggregation}
    (free : post.name ∉ q.resultNames)
    (fields : ∃ a ∈ q.aggregations, ∃ b ∈ q.aggregations,
      a.name ≠ b.name ∧ post.fields = [a.name, b.name]) :
    (q.addPostAggregation post).WellNamed := by
  have names := q.resultNames_addPostAggregation post
  refine ⟨?_, ?_, well.recorded, ?_⟩
  · rw [names.nodup_iff, List.nodup_cons]
    exact ⟨free, well.distinct⟩
  · intro entry held
    obtain ⟨own, known⟩ := well.stored entry held
    exact ⟨own, names.mem_iff.2 (List.mem_cons_of_mem _ known)⟩
  · intro other held
    rcases List.mem_append.1 held with old | new
    · exact well.divided other old
    · rw [List.mem_singleton.1 new]
      exact fields

/-- A result column for a result keeps a query well named. -/
theorem addResult (well : q.WellNamed) {r : ResultColumn} (known : r.name ∈ q.resultNames) :
    (q.addResult r).WellNamed := by
  refine ⟨well.distinct, ?_, ?_, well.divided⟩
  · intro entry held
    rcases Table.mem_upsert held with rfl | old
    · exact ⟨rfl, known⟩
    · exact well.stored entry old
  · intro d held
    rw [exists_result?_iff]
    exact Table.mem_keys_insert.2 (Or.inl (exists_result?_iff.1 (well.recorded d held)))

/-- A dimension with its result column under a free name keeps a query well named. -/
theorem recordDimension (well : q.WellNamed) {choice : String × Query}
    (chosen : q.Chooses choice) {d : Dimension} (named : d.outputName = choice.1) (group : Expr)
    (storeType : StoreType) :
    (Scope.recordDimension choice.2 d group storeType).WellNamed := by
  obtain ⟨k, kept⟩ := chosen.kept
  have names := q.resultNames_addDimension d
  rw [kept]
  refine ⟨?_, ?_, ?_, well.divided⟩
  · refine names.nodup_iff.2 (List.nodup_cons.2 ⟨?_, well.distinct⟩)
    rw [named]
    exact chosen.not_mem_resultNames
  · intro entry held
    rcases Table.mem_upsert held with rfl | old
    · exact ⟨rfl, names.mem_iff.2 List.mem_cons_self⟩
    · obtain ⟨own, known⟩ := well.stored entry old
      exact ⟨own, names.mem_iff.2 (List.mem_cons_of_mem _ known)⟩
  · intro other held
    rw [exists_result?_iff]
    refine Table.mem_keys_insert.2 ?_
    rcases List.mem_append.1 held with old | new
    · exact Or.inl (exists_result?_iff.1 (well.recorded other old))
    · rw [List.mem_singleton.1 new]
      exact Or.inr rfl

/-- An aggregation under a generated name keeps a query well named. -/
theorem addFresh (well : q.WellNamed) {aggregation : String → Aggregation}
    (takes : Scope.TakesName aggregation) :
    (q.freshAlias.2.addAggregation (aggregation q.freshAlias.1)).WellNamed := by
  have free : (aggregation q.freshAlias.1).name ∉ q.resultNames := by
    rw [takes]
    exact q.chooses_freshAlias.not_mem_resultNames
  exact (well.remember _).addAggregation free

/-- An aggregate computed by one aggregation keeps a query well named. -/
theorem addCall (well : q.WellNamed) {aggregation : String → Aggregation}
    (takes : Scope.TakesName aggregation) (call : AggregateCall) (storeType : StoreType) :
    (Scope.addCall q call aggregation storeType).WellNamed := by
  have names := q.freshAlias.2.resultNames_addAggregation (aggregation q.freshAlias.1)
  rw [takes] at names
  exact (well.addFresh takes).addResult (names.mem_iff.2 List.mem_cons_self)

/-- The quotient of two aggregations keeps a query well named. -/
theorem addQuotient (well : q.WellNamed) {a b : Aggregation} (numerator : a ∈ q.aggregations)
    (denominator : b ∈ q.aggregations) (apart : a.name ≠ b.name) (call : AggregateCall) :
    (Scope.addQuotient q call a.name b.name).WellNamed := by
  have names := q.freshAlias.2.resultNames_addPostAggregation
    (.division q.freshAlias.1 a.name b.name)
  have divided : (q.freshAlias.2.addPostAggregation
      (.division q.freshAlias.1 a.name b.name)).WellNamed :=
    (well.remember _).addPostAggregation q.chooses_freshAlias.not_mem_resultNames
      ⟨a, numerator, b, denominator, apart, rfl⟩
  exact divided.addResult (names.mem_iff.2 List.mem_cons_self)

/-- An average computed from a sum and a count keeps a query well named. -/
theorem addAverage (well : q.WellNamed) {sum count : String → Aggregation}
    (takesSum : Scope.TakesName sum) (takesCount : Scope.TakesName count)
    (call : AggregateCall) : (Scope.addAverage q call sum count).WellNamed := by
  let summed := q.freshAlias.2.addAggregation (sum q.freshAlias.1)
  let counted := summed.freshAlias.2.addAggregation (count summed.freshAlias.1)
  have apart : (sum q.freshAlias.1).name ≠ (count summed.freshAlias.1).name := by
    rw [takesCount]
    intro same
    -- the name of the sum is already a result name when the count chooses its own
    have known : (sum q.freshAlias.1).name ∈ summed.resultNames :=
      (q.freshAlias.2.resultNames_addAggregation _).mem_iff.2 List.mem_cons_self
    rw [same] at known
    exact summed.chooses_freshAlias.not_mem_resultNames known
  have quotient := ((well.addFresh takesSum).addFresh takesCount : counted.WellNamed).addQuotient
    (a := sum q.freshAlias.1) (b := count summed.freshAlias.1)
    (List.mem_append_left _ (List.mem_append_right _ List.mem_cons_self))
    (List.mem_append_right _ List.mem_cons_self) apart call
  rw [takesSum, takesCount] at quotient
  exact quotient

/-- Lowering a grouping expression keeps a query well named. -/
theorem groupedBy (well : q.WellNamed) {s : Scope} {group expanded : Expr} {q' : Query}
    (grouped : s.GroupedBy q group expanded q') : q'.WellNamed := by
  obtain ⟨choice, d, storeType, chosen, named, rfl⟩ := grouped.recorded
  exact well.recordDimension chosen named group storeType

/-- Lowering an aggregate keeps a query well named. -/
theorem computedBy (well : q.WellNamed) {s : Scope} {call : AggregateCall} {q' : Query}
    (computed : s.ComputedBy q call q') : q'.WellNamed := by
  rcases computed.shape with ⟨aggregation, storeType, takes, rfl⟩ |
    ⟨sum, count, takesSum, takesCount, rfl⟩
  · exact well.addCall takes call storeType
  · exact well.addAverage takesSum takesCount call

end WellNamed

end Query

/-- The lowered query of a grouping set over an empty one is well named. -/
theorem Rule.Lowers.wellNamed {rule : Rule} {source : Source} {set : GroupingSet}
    {pushed : PushedSet} (lowers : rule.Lowers source set pushed)
    (start : source.query.WellNamed) : pushed.query.WellNamed :=
  lowers.keeps start (fun _ _ _ _ well grouped => well.groupedBy grouped)
    fun _ _ _ _ well computed => well.computedBy computed

/-- Every query of a pushed aggregate is unambiguous and closed under its references by name. -/
theorem wellNamed_of_pushAggregate? {catalog : Catalog} {scripts : ScriptCompiler}
    {settings : Settings} {plan : Plan} {p : PushedAggregate}
    (pushed : pushAggregate? catalog scripts settings plan = some p) :
    ∀ set ∈ p.sets, set.query.WellNamed := by
  obtain ⟨input, groupBy, outputs, rfl⟩ := Rule.exists_aggregate_of_push? pushed
  obtain ⟨source, known, -, lowered⟩ := Rule.exists_source_of_push? pushed
  obtain ⟨r, empty⟩ := Source.query_eq_of_ofPlan? known
  have start : source.query.WellNamed := empty ▸ Query.wellNamed_empty r
  intro set given
  obtain ⟨groupingSet, -, lowers⟩ := Run.exists_item lowered given
  exact lowers.wellNamed start

/-- The three queries of a rollup are well named. -/
theorem wellNamed_rollup :
    ∃ p, pushAggregate? Sales.catalog .none .allEnabled Sales.rollup = some p ∧
    p.sets.length = 3 ∧ ∀ set ∈ p.sets, set.query.WellNamed := by
  obtain ⟨p, pushed, sets⟩ := Sales.exists_pushed
  exact ⟨p, pushed, sets, wellNamed_of_pushAggregate? pushed⟩

end Rollup
