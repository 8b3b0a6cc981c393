import Rollup.Proofs.Agreement
import Rollup.Proofs.ColumnChains
import Rollup.Proofs.Groups
import Rollup.Proofs.PlainGroups

/-!
# Expansions that change nothing

An expansion with a single row that passes every column on writes the rows that it reads. The
grouping set of that row is found in another way than the one of an aggregate without an expansion:
its columns are looked up in the row and its outputs are searched for constants. It must still have
the same query.
-/

namespace Rollup

namespace ExpansionRow

/-- The row that passes every column on. -/
def identity (output : List Attribute) : ExpansionRow where
  project? := none
  output := output
  row := output.map .column

variable {output : List Attribute}

/-- The cell for a column is the column of the expansion that has its identity. -/
theorem cellFor?_identity (attr : Attribute) :
    cellFor? output (output.map .column) attr =
      (output.find? fun a => a.id = attr.id).map .column := by
  rw [cellFor?, zip_map_self, List.find?_map, Option.map_map]
  rfl

/-- An expression stands for itself if its columns are those of the expansion. -/
theorem resolve_identity {e : Expr}
    (same : ∀ attr ∈ e.columns, ∀ a ∈ output, a.id = attr.id → a = attr) :
    (identity output).resolve e = e := by
  have unchanged : ∀ attr ∈ e.columns, (identity output).resolve (.column attr) =
      (Expr.column attr).mapColumns fun _ => none := by
    intro attr held
    rw [resolve_column rfl, Expr.mapColumns_none]
    change (cellFor? output (output.map .column) attr).getD (.column attr) = .column attr
    rw [cellFor?_identity]
    cases found : output.find? fun a => a.id = attr.id with
    | none => rfl
    | some a =>
      have alike : a.id = attr.id := by simpa using List.find?_some found
      have itself : a = attr := same attr held a (List.mem_of_find?_eq_some found) alike
      rw [itself]
      rfl
  calc
    (identity output).resolve e = e.mapColumns fun _ => none := Expr.mapColumns_congr unchanged
    _ = e := Expr.mapColumns_none e

/-- No cell of the row is null. -/
theorem isNullLiteral_of_valueAt? {positions : Table ExprId Nat} {id : ExprId} {cell : Expr}
    (found : (identity output).valueAt? positions id = some cell) : cell.isNullLiteral = false := by
  obtain ⟨place, -, here⟩ := Option.bind_eq_some_iff.1 found
  obtain ⟨attr, -, rfl⟩ := List.mem_map.1 (List.mem_of_getElem? here)
  rfl

/-- The host fills in nothing where no column numbers grouping sets. -/
theorem overrides_identity {outputs : List Expr}
    (unmarked : ∀ attr ∈ Expr.columnsOf outputs, attr.isGroupingId = false) :
    (identity output).overrides outputs = .empty := by
  let value? := (identity output).valueAt? ((identity output).positions outputs)
  have present (e constant : Expr) (k : ExprId) : e.nullOverride? (value? k) ≠ some constant := by
    intro filled
    obtain ⟨-, ⟨cell, found, null⟩, -⟩ := Expr.eq_null_of_nullOverride? filled
    rw [isNullLiteral_of_valueAt? found] at null
    cases null
  have nothing : outputs.flatMap (outputOverrides value?) = [] := by
    rw [List.flatMap_eq_nil_iff]
    intro e given
    rw [List.eq_nil_iff_forall_not_mem]
    rintro ⟨k, constant⟩ listed
    rcases mem_outputOverrides listed with ⟨-, filled⟩ | ⟨call, -, -, -, filled⟩
    · obtain ⟨attr, sole⟩ := Expr.exists_soleColumn?_of_override? filled
      have plain : attr.isGroupingId = false :=
        unmarked attr (Expr.columns_subset_columnsOf given (Expr.mem_columns_of_soleColumn? sole))
      rw [Expr.override?_eq_nullOverride? sole plain] at filled
      exact present e constant k filled
    · exact present call.toExpr constant k filled
  rw [overrides]
  change Table.ofList (outputs.flatMap (outputOverrides value?)) = .empty
  rw [nothing]
  rfl

end ExpansionRow

/-- The row that passes every column on makes the query of an aggregate without an expansion, if it
changes no column of the aggregate and none of them numbers grouping sets. -/
theorem Rule.lowerSet?_identity {rule : Rule} {source : Source} {groupBy outputs : List Expr}
    {output : List Attribute}
    (same : ∀ attr ∈ Expr.columnsOf (groupBy ++ outputs), ∀ a ∈ output, a.id = attr.id → a = attr)
    (unmarked : ∀ attr ∈ Expr.columnsOf outputs, attr.isGroupingId = false) :
    rule.lowerSet? source (.ofRow groupBy outputs (.identity output)) =
      rule.lowerSet? source (.plain groupBy outputs) := by
  refine lowerSet?_ofRow_eq (.plain groupBy outputs) (fun e held => ?_) ?_ ?_
  · exact ExpansionRow.resolve_identity fun attr given => same attr (held given)
  · exact (List.map_id groupBy).symm
  · exact ExpansionRow.overrides_identity unmarked

/-- An aggregate is pushed alike over its input and over an expansion of this input with a single
row that passes every column on. -/
theorem pushAggregate?_identity (catalog : Catalog) (scripts : ScriptCompiler)
    {settings : Settings} (permitted : settings.pushGroupingSets = true) {input : Plan}
    (direct : ∀ child projections output, input ≠ .expand child projections output)
    (through : ∀ child projections output expressions,
      input ≠ .project (.expand child projections output) expressions)
    {output : List Attribute} {groupBy outputs : List Expr}
    (same : ∀ attr ∈ Expr.columnsOf (groupBy ++ outputs), ∀ a ∈ output, a.id = attr.id → a = attr)
    (unmarked : ∀ attr ∈ Expr.columnsOf (groupBy ++ outputs), attr.isGroupingId = false) :
    pushAggregate? catalog scripts settings (.aggregate input groupBy outputs) =
      pushAggregate? catalog scripts settings
        (.aggregate (.expand input [output.map .column] output) groupBy outputs) := by
  have plain := Expansion.ofPlan?_eq_none direct through
  have unmarkedOutputs : ∀ attr ∈ Expr.columnsOf outputs, attr.isGroupingId = false :=
    fun attr held => unmarked attr (Expr.columnsOf_subset (List.subset_append_right _ _) held)
  apply Rule.push?_congr
  · rw [Plan.sourcePlan, plain]
    rfl
  · change (_ && !settings.pushGroupingSets) = (_ && !settings.pushGroupingSets)
    rw [permitted, Bool.not_true, Bool.and_false, Bool.and_false]
  · intro source
    rw [Plan.groupingSets, plain]
    change [GroupingSet.plain groupBy outputs].mapM _ =
      [GroupingSet.ofRow groupBy outputs (.identity output)].mapM _
    rw [List.mapM_cons, List.mapM_cons, Rule.lowerSet?_identity same unmarkedOutputs]

namespace Sales

/-- The places and prices of the sales. -/
def priced : Plan := .project scan [.aliased (.column scannedCity) "place" ⟨62⟩, .column price]

/-- The average price and the number of sales. -/
def averages : List Expr := [.column place, mean, .aliased count.toExpr "sales" ⟨23⟩]

end Sales

/-- The average price by place is pushed, and pushed alike over an expansion that passes prices and
places on. -/
theorem pushAggregate?_identity_priced :
    (pushAggregate? Sales.catalog .none .allEnabled
      (.aggregate Sales.priced [.column Sales.place] Sales.averages)).isSome = true ∧
    pushAggregate? Sales.catalog .none .allEnabled
        (.aggregate Sales.priced [.column Sales.place] Sales.averages) =
      pushAggregate? Sales.catalog .none .allEnabled
        (.aggregate (.expand Sales.priced [[.column Sales.price, .column Sales.place]]
          [Sales.price, Sales.place]) [.column Sales.place] Sales.averages) := by
  have same : ∀ attr ∈ Expr.columnsOf ([.column Sales.place] ++ Sales.averages),
      ∀ a ∈ [Sales.price, Sales.place], a.id = attr.id → a = attr := by decide
  refine ⟨by decide +kernel, ?_⟩
  exact pushAggregate?_identity Sales.catalog .none rfl (fun _ _ _ => Plan.noConfusion)
    (fun _ _ _ _ through => by cases through) same (by decide)

end Rollup
