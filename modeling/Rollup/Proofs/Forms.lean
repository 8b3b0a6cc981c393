import Rollup.Proofs.Growth

/-!
# Forms of a lowered query

Every way in which a grouping expression becomes a dimension, and in which an aggregate becomes
aggregations, with what must hold for it. Later proofs look at these forms and not at the lowering
itself.
-/

namespace Rollup.Scope

/-- A grouping expression became a dimension of the second query. -/
inductive GroupedBy (s : Scope) (q : Query) (group expanded : Expr) : Query → Prop
  | direct {attr : Attribute} {column : Column}
      (bare : (s.withStoreNames expanded).stripAlias = .column attr)
      (found : q.relation.dimension? attr.name = some column) :
      GroupedBy s q group expanded
        (recordDimension (q.outputName group.outputName?).2
          { source := column.name, outputName := (q.outputName group.outputName?).1 } group
          (.of column.dataType))
  | formatted {time : TimeExtraction}
      (found : TimeExtraction.ofFormat? q.relation s.settings.timezone
        (s.withStoreNames expanded).stripAlias = some time) :
      GroupedBy s q group expanded (extractionDimension q group time)
  | part {time : TimeExtraction}
      (found : TimeExtraction.ofPart? q.relation s.settings.timezone (s.withStoreNames group) =
        some time) :
      GroupedBy s q group expanded (extractionDimension q group time)
  | script {function : ScriptFunction} {source : String}
      (compiled : s.compile? q (s.withStoreNames expanded).stripAlias .row = some function)
      (sole : function.soleParam? = some source) :
      GroupedBy s q group expanded
        (recordDimension q.freshAlias.2
          { source, outputName := q.freshAlias.1, extraction? := some (.script function) } group
          .string)

/-- The lowering of a grouping expression has one of the forms. -/
theorem groupedBy_of_lowerGroup? {s : Scope} {q q' : Query} {group expanded : Expr}
    (lowered : s.lowerGroup? q group expanded = some q') : s.GroupedBy q group expanded q' := by
  unfold lowerGroup? at lowered
  rcases Option.or_eq_some_iff.1 lowered with direct | ⟨-, lowered⟩
  · obtain ⟨attr, bare, direct⟩ := Option.bind_eq_some_iff.1 direct
    obtain ⟨column, found, rfl⟩ := Option.map_eq_some_iff.1 direct
    exact .direct (Expr.column?_eq_some_iff.1 bare) found
  rcases Option.or_eq_some_iff.1 lowered with formatted | ⟨-, lowered⟩
  · obtain ⟨time, found, rfl⟩ := Option.map_eq_some_iff.1 formatted
    exact .formatted found
  rcases Option.or_eq_some_iff.1 lowered with part | ⟨-, script⟩
  · obtain ⟨time, found, rfl⟩ := Option.map_eq_some_iff.1 part
    exact .part found
  · obtain ⟨function, compiled, script⟩ := Option.bind_eq_some_iff.1 script
    obtain ⟨source, sole, rfl⟩ := Option.map_eq_some_iff.1 script
    exact .script compiled sole

/-- In every form, one dimension is recorded for the grouping expression under a free name. -/
theorem GroupedBy.recorded {s : Scope} {q q' : Query} {group expanded : Expr}
    (grouped : s.GroupedBy q group expanded q') :
    ∃ choice d storeType, q.Chooses choice ∧ d.outputName = choice.1 ∧
      q' = recordDimension choice.2 d group storeType := by
  cases grouped with
  | direct => exact ⟨_, _, _, q.chooses_outputName _, rfl, rfl⟩
  | formatted => exact ⟨_, _, _, q.chooses_outputName _, rfl, rfl⟩
  | part => exact ⟨_, _, _, q.chooses_outputName _, rfl, rfl⟩
  | script => exact ⟨_, _, _, q.chooses_freshAlias, rfl, rfl⟩

/-- A lowered grouping expression adds its dimension and its result column, and nothing else. -/
theorem GroupedBy.grown {s : Scope} {q q' : Query} {group expanded : Expr}
    (grouped : s.GroupedBy q group expanded q') :
    ∃ name d storeType, d.outputName = name ∧ q'.relation = q.relation ∧
      q'.dimensions = q.dimensions ++ [d] ∧ q'.aggregations = q.aggregations ∧
      q'.postAggregations = q.postAggregations ∧
      q'.results.entries = q.results.entries ++ [(name, groupColumn name group storeType)] := by
  obtain ⟨choice, d, storeType, chosen, named, rfl⟩ := grouped.recorded
  exact ⟨choice.1, d, storeType, named, recordDimension_eq chosen named group storeType⟩

/-- The result column that is added stands for the grouping expression. -/
theorem GroupedBy.expr_eq {s : Scope} {q q' : Query} {group expanded : Expr}
    (grouped : s.GroupedBy q group expanded q') {entry : String × ResultColumn}
    (added : q'.results.entries = q.results.entries ++ [entry]) : entry.2.expr = group := by
  obtain ⟨_, _, _, -, -, -, -, -, results⟩ := grouped.grown
  rw [added, List.append_cancel_left_eq, List.singleton_inj] at results
  rw [results]
  rfl

/-- An aggregate is computed by the second query. -/
inductive ComputedBy (s : Scope) (q : Query) (call : AggregateCall) : Query → Prop
  | rowCount (counts : call.func = .count) (plain : call.distinct = false)
      (native : isNativeMode call = true) (rows : s.countsRows call = true) :
      ComputedBy s q call (addCall q call (rowCount q.relation) .long)
  | distinctCount {column : Column} {aggregation : String → Aggregation}
      (native : isNativeMode call = true) (counts : countsDistinct call = true)
      (argument : s.argumentColumn? q call = some column)
      (found : distinctCount? q.relation column = some aggregation) :
      ComputedBy s q call (addCall q call aggregation .double)
  | metric {column : Column} {function : NativeFunction}
      (native : isNativeMode call = true) (plain : call.distinct = false)
      (argument : s.argumentColumn? q call = some column) (isMetric : column.kind = .metric)
      (numeric : column.dataType.isNumeric = true)
      (compatible : isTypeCompatible call column = true)
      (found : nativeFunction? call.func column.dataType = some function) :
      ComputedBy s q call
        (addCall q call (fun name => .native function name (some column.name))
          function.storeType)
  | average {column : Column} {function : NativeFunction}
      (native : isNativeMode call = true) (plain : call.distinct = false)
      (averages : call.func = .avg) (argument : s.argumentColumn? q call = some column)
      (isMetric : column.kind = .metric) (numeric : column.dataType.isNumeric = true)
      (found : nativeFunction? .sum column.dataType = some function) :
      ComputedBy s q call
        (addAverage q call (fun name => .native function name (some column.name))
          (Scope.rowCount q.relation))
  | script {function : ScriptFunction}
      (compiled : s.compile? q (s.resolveCall call).toExpr .aggregate = some function) :
      ComputedBy s q call
        (addCall q call (fun name => .script name function) (.of call.dataType))
  | scriptAverage {sum count : ScriptFunction}
      (needed : s.needsScriptAverage q call = true)
      (sumCompiled : s.compile? q (AggregateCall.toExpr
        { s.resolveCall call with func := .sum, dataType := .float64 }) .aggregate = some sum)
      (countCompiled : s.compile? (q.freshAlias.2.addAggregation (.script q.freshAlias.1 sum))
        (AggregateCall.toExpr { s.resolveCall call with func := .count, dataType := .int64 })
        .aggregate = some count) :
      ComputedBy s q call
        (addAverage q call (fun name => .script name sum) (fun name => .script name count))

/-- A row count has its form. -/
theorem computedBy_of_rowCountCall? {s : Scope} {q q' : Query} {call : AggregateCall}
    (lowered : s.rowCountCall? q call = some q') : s.ComputedBy q call q' := by
  unfold rowCountCall? at lowered
  split at lowered
  · rename_i guard
    simp only [Bool.and_eq_true, beq_iff_eq, Bool.not_eq_true'] at guard
    obtain ⟨⟨⟨counts, plain⟩, native⟩, rows⟩ := guard
    cases lowered
    exact .rowCount counts plain native rows
  · cases lowered

/-- A count of distinct values has its form. -/
theorem computedBy_of_distinctCall? {s : Scope} {q q' : Query} {call : AggregateCall}
    (native : isNativeMode call = true) (lowered : s.distinctCall? q call = some q') :
    s.ComputedBy q call q' := by
  unfold distinctCall? at lowered
  split at lowered
  · rename_i counts
    obtain ⟨column, argument, lowered⟩ := Option.bind_eq_some_iff.1 lowered
    obtain ⟨aggregation, found, rfl⟩ := Option.map_eq_some_iff.1 lowered
    exact .distinctCount native counts argument found
  · cases lowered

/-- An aggregate over a metric has its form, averages one of their own. -/
theorem computedBy_of_metricCall? {s : Scope} {q q' : Query} {call : AggregateCall}
    (native : isNativeMode call = true) (lowered : s.metricCall? q call = some q') :
    s.ComputedBy q call q' := by
  unfold metricCall? at lowered
  split at lowered
  · cases lowered
  rename_i plain
  obtain ⟨column, argument, lowered⟩ := Option.bind_eq_some_iff.1 lowered
  have plain : call.distinct = false := Bool.eq_false_iff.2 plain
  split at lowered
  · rename_i guard
    simp only [Bool.and_eq_true, beq_iff_eq] at guard
    obtain ⟨isMetric, numeric⟩ := guard
    split at lowered
    · rename_i averages
      obtain ⟨function, found, rfl⟩ := Option.map_eq_some_iff.1 lowered
      exact .average native plain (beq_iff_eq.1 averages) argument isMetric numeric found
    · split at lowered
      · rename_i compatible
        obtain ⟨function, found, rfl⟩ := Option.map_eq_some_iff.1 lowered
        exact .metric native plain argument isMetric numeric compatible found
      · cases lowered
  · cases lowered

/-- A native form other than a row count is one of the forms. -/
theorem computedBy_of_nativeCall? {s : Scope} {q q' : Query} {call : AggregateCall}
    (lowered : s.nativeCall? q call = some q') : s.ComputedBy q call q' := by
  unfold nativeCall? at lowered
  split at lowered
  · rename_i native
    rcases Option.or_eq_some_iff.1 lowered with distinct | ⟨-, metric⟩
    · exact computedBy_of_distinctCall? native distinct
    · exact computedBy_of_metricCall? native metric
  · cases lowered

/-- A scripted average has its form. -/
theorem computedBy_of_scriptAverage? {s : Scope} {q q' : Query} {call : AggregateCall}
    (needed : s.needsScriptAverage q call = true) (lowered : s.scriptAverage? q call = some q') :
    s.ComputedBy q call q' := by
  unfold scriptAverage? at lowered
  obtain ⟨sum, sumCompiled, lowered⟩ := Option.bind_eq_some_iff.1 lowered
  obtain ⟨count, countCompiled, rfl⟩ := Option.map_eq_some_iff.1 lowered
  exact .scriptAverage needed sumCompiled countCompiled

/-- The lowering of an aggregate that the host does not fill in has one of the forms. -/
theorem computedBy_of_lowerCall? {s : Scope} {q q' : Query} {call : AggregateCall}
    (asked : s.isOverridden call.id = false) (lowered : s.lowerCall? q call = some q') :
    s.ComputedBy q call q' := by
  unfold lowerCall? at lowered
  rw [asked] at lowered
  split at lowered
  · contradiction
  split at lowered
  · rename_i needed
    exact computedBy_of_scriptAverage? needed lowered
  · rcases Option.or_eq_some_iff.1 lowered with rows | ⟨-, lowered⟩
    · exact computedBy_of_rowCountCall? rows
    rcases Option.or_eq_some_iff.1 lowered with native | ⟨-, script⟩
    · exact computedBy_of_nativeCall? native
    · obtain ⟨function, compiled, rfl⟩ := Option.map_eq_some_iff.1 script
      exact .script compiled

/-- In every form, the aggregate is computed by one aggregation, or as an average by a sum and a
count. -/
theorem ComputedBy.shape {s : Scope} {q q' : Query} {call : AggregateCall}
    (computed : s.ComputedBy q call q') :
    (∃ aggregation storeType, TakesName aggregation ∧
      q' = addCall q call aggregation storeType) ∨
    ∃ sum count, TakesName sum ∧ TakesName count ∧ q' = addAverage q call sum count := by
  cases computed with
  | rowCount => exact .inl ⟨_, _, takesName_rowCount _, rfl⟩
  | distinctCount _ _ _ found => exact .inl ⟨_, _, takesName_of_distinctCount? found, rfl⟩
  | metric => exact .inl ⟨_, _, fun _ => rfl, rfl⟩
  | average => exact .inr ⟨_, _, fun _ => rfl, takesName_rowCount _, rfl⟩
  | script => exact .inl ⟨_, _, fun _ => rfl, rfl⟩
  | scriptAverage => exact .inr ⟨_, _, fun _ => rfl, fun _ => rfl, rfl⟩

/-- A lowered aggregate adds its result column and one aggregation more than post-aggregations. -/
theorem ComputedBy.grown {s : Scope} {q q' : Query} {call : AggregateCall}
    (computed : s.ComputedBy q call q') :
    ∃ name storeType aggregations posts, q'.relation = q.relation ∧
      q'.dimensions = q.dimensions ∧ q'.aggregations = q.aggregations ++ aggregations ∧
      q'.postAggregations = q.postAggregations ++ posts ∧
      aggregations.length = posts.length + 1 ∧
      q'.results.entries = q.results.entries ++ [(name, callColumn name call storeType)] := by
  rcases computed.shape with ⟨aggregation, storeType, -, rfl⟩ | ⟨sum, count, -, -, rfl⟩
  · exact ⟨_, storeType, [_], [], rfl, rfl, rfl, (List.append_nil _).symm, rfl,
      results_addCall q call aggregation storeType⟩
  · obtain ⟨sumName, countName, name, aggregations, posts, results⟩ :=
      addAverage_eq q call sum count
    exact ⟨name, .double, _, _, rfl, rfl, aggregations, posts, rfl, results⟩

/-- The result column that is added stands for the aggregate. -/
theorem ComputedBy.expr_eq {s : Scope} {q q' : Query} {call : AggregateCall}
    (computed : s.ComputedBy q call q') {entry : String × ResultColumn}
    (added : q'.results.entries = q.results.entries ++ [entry]) :
    entry.2.expr = call.toExpr := by
  obtain ⟨_, _, _, _, -, -, -, -, -, results⟩ := computed.grown
  rw [added, List.append_cancel_left_eq, List.singleton_inj] at results
  rw [results]
  rfl

/-- Lowering a grouping expression extends the query. -/
theorem GroupedBy.extended {s : Scope} {q q' : Query} {group expanded : Expr}
    (grouped : s.GroupedBy q group expanded q') : q.Extends q' := by
  obtain ⟨_, d, _, -, relation, dimensions, aggregations, posts, results⟩ := grouped.grown
  exact ⟨relation, ⟨[d], dimensions.symm⟩, aggregations ▸ List.prefix_rfl,
    posts ▸ List.prefix_rfl, ⟨_, results.symm⟩⟩

/-- Lowering an aggregate extends the query. -/
theorem ComputedBy.extended {s : Scope} {q q' : Query} {call : AggregateCall}
    (computed : s.ComputedBy q call q') : q.Extends q' := by
  obtain ⟨_, _, added, addedPosts, relation, dimensions, aggregations, posts, -, results⟩ :=
    computed.grown
  exact ⟨relation, dimensions ▸ List.prefix_rfl, ⟨added, aggregations.symm⟩,
    ⟨addedPosts, posts.symm⟩, ⟨_, results.symm⟩⟩

end Rollup.Scope
