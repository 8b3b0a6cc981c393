import Rollup.Proofs.Results

/-!
# What lowering sees of a row

A row of an expansion is seen by what it makes of the columns of an aggregate and by the cells at
their places, and by nothing else. Grouping sets with the same grouping expressions, constants and
arguments have the same query, whatever expansion they come from; and two rows that have the same
cell for every column that is used make the same grouping set.
-/

namespace Rollup

namespace Scope

/-- The scope in another row of an expansion, or in none. -/
def inRow (s : Scope) (row? : Option ExpansionRow) : Scope := { s with row? }

variable {s : Scope} {row? : Option ExpansionRow} {call : AggregateCall}

/-- An aggregate is taken of the same column in every row in which its arguments stand for the
same. -/
theorem argumentColumn?_inRow
    (kept : ∀ arg ∈ call.args, (s.inRow row?).resolve arg = s.resolve arg) (q : Query) :
    (s.inRow row?).argumentColumn? q call = s.argumentColumn? q call := by
  unfold argumentColumn? AggregateCall.singleArg?
  split
  · rename_i arg single
    have same : (s.inRow row?).resolve arg = s.resolve arg :=
      kept arg (single ▸ List.mem_cons_self)
    rw [Option.bind_some, Option.bind_some, column?, same, column?]
  · rfl

/-- An aggregate counts rows in every row in which its arguments stand for the same. -/
theorem countsRows_inRow
    (kept : ∀ arg ∈ call.args, (s.inRow row?).resolve arg = s.resolve arg) :
    (s.inRow row?).countsRows call = s.countsRows call := by
  unfold countsRows
  split
  · rfl
  · rename_i arg single
    rw [kept arg (single ▸ List.mem_cons_self)]
  · rfl

/-- An aggregate has the same arguments in every row in which they stand for the same. -/
theorem resolveCall_inRow
    (kept : ∀ arg ∈ call.args, (s.inRow row?).resolve arg = s.resolve arg) :
    (s.inRow row?).resolveCall call = s.resolveCall call := by
  rw [resolveCall, resolveCall, List.map_congr_left kept]

/-- An aggregate is computed alike in every row in which its arguments stand for the same. -/
theorem lowerCall?_inRow
    (kept : ∀ arg ∈ call.args, (s.inRow row?).resolve arg = s.resolve arg) (q : Query) :
    (s.inRow row?).lowerCall? q call = s.lowerCall? q call := by
  have argument := argumentColumn?_inRow kept q
  have needed : (s.inRow row?).needsScriptAverage q call = s.needsScriptAverage q call := by
    rw [needsScriptAverage, argument]
    rfl
  have rows : (s.inRow row?).rowCountCall? q call = s.rowCountCall? q call := by
    rw [rowCountCall?, countsRows_inRow kept, rowCountCall?]
  have native : (s.inRow row?).nativeCall? q call = s.nativeCall? q call := by
    rw [nativeCall?, distinctCall?, metricCall?, argument]
    rfl
  have script : (s.inRow row?).scriptCall? q call = s.scriptCall? q call := by
    rw [scriptCall?, resolveCall_inRow kept]
    rfl
  have average : (s.inRow row?).scriptAverage? q call = s.scriptAverage? q call := by
    rw [scriptAverage?, resolveCall_inRow kept]
    rfl
  rw [lowerCall?, needed, rows, native, script, average]
  rfl

end Scope

namespace Rule

variable {rule : Rule} {source : Source}

/-- A grouping set has the same query in every row in which the arguments of its aggregates stand
for the same. -/
theorem lowerSet?_inRow {set : GroupingSet} {row? : Option ExpansionRow}
    (kept : ∀ call ∈ set.calls, ∀ arg ∈ call.args,
      ((rule.scope source set).inRow row?).resolve arg = (rule.scope source set).resolve arg) :
    rule.lowerSet? source { set with row? } = rule.lowerSet? source set := by
  have computed (q : Query) :
      set.calls.foldlM ((rule.scope source set).inRow row?).lowerCall? q =
        set.calls.foldlM (rule.scope source set).lowerCall? q :=
    Run.congr fun call given q => Scope.lowerCall?_inRow (kept call given) q
  change (Option.bind _ fun q => (set.calls.foldlM
    ((rule.scope source set).inRow row?).lowerCall? q).map _) = _
  simp only [computed]
  rfl

/-- Aggregates over two inputs are pushed alike if the same is below both, grouping sets may be
pushed over both or over neither, and both have the same queries. -/
theorem push?_congr {input other : Plan} {groupBy outputs : List Expr}
    (below : input.sourcePlan = other.sourcePlan)
    (permitted : ((Expansion.ofPlan? input).isSome && !rule.settings.pushGroupingSets) =
      ((Expansion.ofPlan? other).isSome && !rule.settings.pushGroupingSets))
    (alike : ∀ source, (input.groupingSets groupBy outputs).mapM (rule.lowerSet? source) =
      (other.groupingSets groupBy outputs).mapM (rule.lowerSet? source)) :
    rule.push? (.aggregate input groupBy outputs) =
      rule.push? (.aggregate other groupBy outputs) := by
  rw [push?_aggregate, push?_aggregate, below, permitted]
  simp only [alike]

end Rule

/-- The columns of an argument of a computed aggregate are columns of the outputs. -/
theorem GroupingSet.columns_subset_of_mem_calls {set : GroupingSet} {call : AggregateCall}
    (asked : call ∈ set.calls) {arg : Expr} (given : arg ∈ call.args) :
    arg.columns ⊆ Expr.columnsOf set.aggregates := by
  obtain ⟨e, output, inside⟩ := mem_calls_of_mem asked
  have ofCall : arg.columns ⊆ call.toExpr.columns := Expr.columns_subset_of_child given
  have ofOutput : call.toExpr.columns ⊆ e.columns := Expr.columns_subset_of_call inside
  exact List.Subset.trans (List.Subset.trans ofCall ofOutput) (Expr.columns_subset_columnsOf output)

/-- A row of an expansion makes the query of a grouping set if the expressions over the columns of
the aggregate stand for the same in both and the same constants are filled in. -/
theorem Rule.lowerSet?_ofRow_eq {rule : Rule} {source : Source} (set : GroupingSet)
    {x : ExpansionRow}
    (same : ∀ e : Expr, e.columns ⊆ Expr.columnsOf (set.groupBy ++ set.aggregates) →
      x.resolve e = (rule.scope source set).inRowOf e)
    (expanded : set.expanded = set.groupBy.map (rule.scope source set).inRowOf)
    (filled : x.overrides set.aggregates = set.overrides) :
    rule.lowerSet? source (.ofRow set.groupBy set.aggregates x) = rule.lowerSet? source set := by
  have groups : set.groupBy.map x.resolve = set.expanded := by
    rw [expanded]
    refine List.map_congr_left fun g given => same g ?_
    exact Expr.columns_subset_columnsOf (List.mem_append_left _ given)
  have moved : GroupingSet.ofRow set.groupBy set.aggregates x = { set with row? := some x } := by
    rw [GroupingSet.ofRow, groups, filled]
  rw [moved]
  refine lowerSet?_inRow fun call asked arg given => ?_
  have kept : x.resolve arg = (rule.scope source set).inRowOf arg := by
    refine same arg (List.Subset.trans (GroupingSet.columns_subset_of_mem_calls asked given) ?_)
    exact Expr.columnsOf_subset (List.subset_append_right _ _)
  exact congrArg (rule.scope source set).withStoreNames kept

namespace ExpansionRow

/-- Both rows have the same cell at the place of a column. -/
def AgreesOn (x y : ExpansionRow) (attr : Attribute) : Prop :=
  ∃ cell, x.inputValue? (.column attr) = some cell ∧ y.inputValue? (.column attr) = some cell

variable {x y : ExpansionRow}

/-- A column stands for the same in both rows. -/
theorem AgreesOn.resolve_column {attr : Attribute} (agree : x.AgreesOn y attr) :
    x.resolve (.column attr) = y.resolve (.column attr) := by
  obtain ⟨cell, first, second⟩ := agree
  rw [resolve_column_of_inputValue? first, resolve_column_of_inputValue? second]

/-- An expression stands for the same in both rows if they agree on its columns. -/
theorem resolve_congr {e : Expr} (agree : ∀ attr ∈ e.columns, x.AgreesOn y attr) :
    x.resolve e = y.resolve e :=
  Expr.mapColumns_congr fun attr held => (agree attr held).resolve_column

/-- Cells at the places of the only inputs of the outputs and of the aggregates inside them. -/
def cells (x : ExpansionRow) (outputs : List Expr) : List (ExprId × Option Expr) :=
  outputs.flatMap fun e => (parts e).filterMap fun part =>
    (part.2.soleColumn?.bind x.position?).map fun place => (part.1, x.row[place]?)

/-- The value under an identity is the last of its cells. -/
theorem valueAt?_eq_cells (x : ExpansionRow) (outputs : List Expr) (id : ExprId) :
    x.valueAt? (x.positions outputs) id = ((Table.ofList (x.cells outputs)).get? id).join := by
  have images : x.cells outputs =
      (outputs.flatMap fun e => (parts e).filterMap fun part =>
        (part.2.soleColumn?.bind x.position?).map fun place => (part.1, place)).map
        fun pair => (pair.1, x.row[pair.2]?) := by
    simp only [cells, List.map_flatMap, List.map_filterMap, Option.map_map]
    rfl
  rw [images, Table.get?_ofList_map, valueAt?, positions]
  cases (Table.ofList _).get? id <;> rfl

/-- Rows that agree on the columns of the outputs have the same cells for them. -/
theorem cells_congr {outputs : List Expr}
    (agree : ∀ attr ∈ Expr.columnsOf outputs, x.AgreesOn y attr) :
    x.cells outputs = y.cells outputs := by
  refine List.flatMap_congr fun e output => List.filterMap_congr fun part inside => ?_
  cases sole : part.2.soleColumn? with
  | none => rfl
  | some attr =>
    have held : attr ∈ e.columns := Expr.columns_subset_of_mem_identities
      (Expr.mem_identities_of_mem_parts inside) (Expr.mem_columns_of_soleColumn? sole)
    obtain ⟨cell, first, second⟩ := agree attr (Expr.columns_subset_columnsOf output held)
    obtain ⟨place, here, there⟩ := Option.bind_eq_some_iff.1 first
    obtain ⟨place', here', there'⟩ := Option.bind_eq_some_iff.1 second
    rw [Expr.soleColumn?] at here here'
    rw [here, here', Option.map_some, Option.map_some, there, there']

/-- Rows that agree on the columns of the outputs have the same constants for them. -/
theorem overrides_congr {outputs : List Expr}
    (agree : ∀ attr ∈ Expr.columnsOf outputs, x.AgreesOn y attr) :
    x.overrides outputs = y.overrides outputs := by
  have values : x.valueAt? (x.positions outputs) = y.valueAt? (y.positions outputs) := by
    funext id
    rw [valueAt?_eq_cells, valueAt?_eq_cells, cells_congr agree]
  rw [overrides, overrides, values]

end ExpansionRow

/-- Rows that agree on all columns of an aggregate make the same query of it. -/
theorem Rule.lowerSet?_ofRow_congr {rule : Rule} {source : Source} {groupBy outputs : List Expr}
    {x y : ExpansionRow}
    (agree : ∀ attr ∈ Expr.columnsOf (groupBy ++ outputs), x.AgreesOn y attr) :
    rule.lowerSet? source (.ofRow groupBy outputs x) =
      rule.lowerSet? source (.ofRow groupBy outputs y) := by
  refine lowerSet?_ofRow_eq (.ofRow groupBy outputs y) (fun e held => ?_) rfl ?_
  · exact ExpansionRow.resolve_congr fun attr given => agree attr (held given)
  · refine ExpansionRow.overrides_congr fun attr held => agree attr ?_
    exact Expr.columnsOf_subset (List.subset_append_right _ _) held

end Rollup
