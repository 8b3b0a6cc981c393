import Rollup.Proofs.PlainGroups
import Rollup.Proofs.Reads

/-!
# Grouping expressions that a row nulls out

A grouping set should not be grouped by what its row nulls out. A column that is null in the row is
left out, and so is every cast of it; but a name around it hides the null, and the expression is
kept. Nothing native can be made of it, since no column is left to read. It becomes a dimension
only if a script stands in, and then the set is grouped by the script of a null constant.
-/

namespace Rollup

namespace Expr

/-- The outermost form of the expression is a name. -/
def isAliased : Expr → Bool
  | aliased _ _ _ => true
  | _ => false

/-- A call is no null constant, whatever its columns are replaced by. -/
theorem isNullLiteral_mapColumns_of_scalar {e : Expr} {func : ScalarFunction} {args : List Expr}
    (call : e.stripCasts = .scalar func args) (f : Attribute → Option Expr) :
    (e.mapColumns f).isNullLiteral = false := by
  fun_induction stripCasts e with
  | case1 inner type ih =>
    rw [mapColumns, isNullLiteral, stripCasts]
    exact ih call
  | case2 e other =>
    rw [call, mapColumns]
    rfl

end Expr

namespace ExpansionRow

variable {x : ExpansionRow} {g : Expr}

/-- The row nulls out a grouping expression: what the expression names is a null constant there,
possibly cast. -/
def nulls (x : ExpansionRow) (g : Expr) : Bool := (x.resolve g.stripAlias).isNullLiteral

/-- A grouping expression stands for a null constant if the row nulls it out and no name is around
it. -/
theorem isNullLiteral_resolve (x : ExpansionRow) (g : Expr) :
    (x.resolve g).isNullLiteral = (x.nulls g && !g.isAliased) := by
  cases g with
  | aliased inner name id =>
    rw [resolve, Expr.mapColumns, Expr.isAliased, Bool.not_true, Bool.and_false]
    rfl
  | column | literal | cast | scalar | binary | aggregate =>
    rw [nulls, Expr.stripAlias, Expr.isAliased, Bool.not_false, Bool.and_true] <;>
      exact fun _ _ _ => Expr.noConfusion

/-- No column is left of what the row nulls out. -/
theorem columns_resolve_of_nulls (null : x.nulls g = true) : (x.resolve g).columns = [] := by
  have named : (x.resolve g).columns = (x.resolve g.stripAlias).columns := by
    rw [resolve, resolve, Expr.columns_mapColumns, Expr.columns_mapColumns,
      Expr.columns_stripAlias]
  rw [named, Expr.columns_of_isNullLiteral null]

/-- What the row nulls out is no part of a point in time. -/
theorem isTimePart_of_nulls (null : x.nulls g = true) : g.isTimePart = false := by
  unfold Expr.isTimePart
  split
  · rename_i func args call
    have present := Expr.isNullLiteral_mapColumns_of_scalar call x.resolveColumn?
    rw [nulls, resolve, present] at null
    cases null
  · rfl

end ExpansionRow

/-- A dimension that stands for what the row nulls out is a script. -/
theorem Scope.GroupedBy.isNative_of_nulls {s : Scope} {q q' : Query} {x : ExpansionRow} {g : Expr}
    (grouped : s.GroupedBy q g (x.resolve g) q') (row : s.row? = some x)
    (null : x.nulls g = true) {d : Dimension} (added : q'.dimensions = q.dimensions ++ [d]) :
    d.isNative = false := by
  have stands : s.withStoreNames (x.resolve g) = s.resolve g := by rw [resolve, inRowOf, row]
  have none : (s.resolve g).columns = [] := by
    rw [← stands, withStoreNames, Expr.columns_mapColumns,
      ExpansionRow.columns_resolve_of_nulls null, List.flatMap_nil]
  refine Bool.eq_false_iff.2 fun native => ?_
  rcases grouped.reads stands added native with ⟨_, -, -, store, -, held, -⟩ | ⟨part, -⟩
  · rw [none] at held
    cases held
  · rw [ExpansionRow.isTimePart_of_nulls null] at part
    cases part

namespace GroupingSet

/-- In a row of an expansion, the store must group by all but markers and what the row nulls out,
unless a name is around it. -/
theorem map_dimensions_ofRow (groupBy outputs : List Expr) (x : ExpansionRow) :
    (ofRow groupBy outputs x).dimensions.map Prod.fst =
      groupBy.filter fun g => !isMarker g && !(x.nulls g && !g.isAliased) := by
  rw [dimensions_ofRow, List.filter_map, List.map_map]
  change List.map id _ = _
  rw [List.map_id]
  refine List.filter_congr fun g _ => ?_
  rw [← x.isNullLiteral_resolve]
  rfl

/-- Nothing that the row nulls out is kept exactly if no name is around it or it is a marker. -/
theorem filter_nulls_iff (groupBy : List Expr) (x : ExpansionRow) :
    (groupBy.filter fun g => !isMarker g && !(x.nulls g && !g.isAliased)) =
        (groupBy.filter fun g => !isMarker g && !x.nulls g) ↔
      ∀ g ∈ groupBy, x.nulls g = true → isMarker g = false → g.isAliased = false := by
  rw [filter_eq_filter_iff]
  refine forall₂_congr fun g _ => ?_
  cases isMarker g <;> cases x.nulls g <;> cases g.isAliased <;> decide

end GroupingSet

/-- In each row of an expansion, a pushed query is grouped by every grouping expression that is
neither a marker nor nulled out in the row, in order, and besides by those that are nulled out under
a name; these have a script for their dimension. Nothing that is nulled out has a dimension exactly
if none of it is named. -/
theorem dimensionsFor_rows_of_pushAggregate? {catalog : Catalog} {scripts : ScriptCompiler}
    {settings : Settings} {input : Plan} {groupBy outputs : List Expr} {x : Expansion}
    {p : PushedAggregate} (expanded : Expansion.ofPlan? input = some x)
    (pushed : pushAggregate? catalog scripts settings (.aggregate input groupBy outputs) =
      some p) :
    List.Forall₂ (fun row set =>
      set.query.DimensionsFor (groupBy.filter fun g =>
        !GroupingSet.isMarker g && !(row.nulls g && !g.isAliased)) ∧
      (∀ g ∈ groupBy, row.nulls g = true → GroupingSet.isMarker g = false →
        g.isAliased = true → ∃ d ∈ set.query.dimensions, d.isNative = false ∧
          ∃ r, set.query.result? d.outputName = some r ∧ r.expr = g) ∧
      (set.query.DimensionsFor (groupBy.filter fun g =>
          !GroupingSet.isMarker g && !row.nulls g) ↔
        ∀ g ∈ groupBy, row.nulls g = true → GroupingSet.isMarker g = false →
          g.isAliased = false)) x.rows p.sets := by
  obtain ⟨source, known, lowered⟩ := Rule.exists_source_of_expansion expanded pushed
  obtain ⟨r, empty⟩ := Source.query_eq_of_ofPlan? known
  refine lowered.imp fun row set lowers => ?_
  have stands := lowers.dimensionsFor (by rw [empty])
  rw [GroupingSet.map_dimensions_ofRow] at stands
  refine ⟨stands, ?_, ?_⟩
  · intro g given null unmarked named
    obtain ⟨ds, each, added⟩ := lowers.dimensions
    rw [empty, List.nil_append] at added
    have candidate :
        (g, row.resolve g) ∈ (GroupingSet.ofRow groupBy outputs row).dimensions := by
      rw [GroupingSet.dimensions_ofRow]
      refine List.mem_filter.2 ⟨List.mem_map_of_mem given, ?_⟩
      rw [unmarked, row.isNullLiteral_resolve, named, Bool.not_true, Bool.and_false]
      rfl
    obtain ⟨d, held, result, q, q', -, grouped, here⟩ := Run.exists_item each.flip candidate
    exact ⟨d, added ▸ held, grouped.isNative_of_nulls rfl null here, result⟩
  · rw [← GroupingSet.filter_nulls_iff]
    constructor
    · exact stands.unique
    · intro same
      exact same ▸ stands

namespace Sales

/-- The expansion by city, and over everything. -/
def cityOrAll : Expansion where
  project? := none
  projections := [
    [.column scannedCity, .literal (.int 0) .int64],
    [.cast (.null .null) .string, .literal (.int 1) .int64]]
  output := [city, marker]
  input := scan

/-- The number of sales over this expansion, by the given form of the city. -/
def salesBy (g : Expr) : Plan :=
  .aggregate (.expand scan cityOrAll.projections cityOrAll.output) [g, .column marker]
    [g, .column marker, .aliased count.toExpr "sales" ⟨23⟩]

/-- City of a sale, under another name. -/
def locality : Expr := .aliased (.column city) "locality" ⟨53⟩

/-- A compiler that answers every expression with one script. -/
def anyScript : ScriptCompiler := fun _ _ _ _ => .ok { params := ["city"], body := "null" }

/-- Whether each dimension is native, for each grouping set of a pushed plan. -/
def nativeDimensions? (plan : Plan) : Option (List (List Bool)) :=
  (pushAggregate? catalog anyScript .allEnabled plan).map fun p =>
    p.sets.map fun set => set.query.dimensions.map Dimension.isNative

end Sales

/-- Sales by city, and over everything, are grouped by the city in the first set and by nothing in
the second. -/
theorem dimensionsFor_rows_salesBy :
    ∃ p first second, pushAggregate? Sales.catalog Sales.anyScript .allEnabled
        (Sales.salesBy (.column Sales.city)) = some p ∧ p.sets = [first, second] ∧
      first.query.DimensionsFor [.column Sales.city] ∧ second.query.DimensionsFor [] := by
  have isPushed : Sales.nativeDimensions? (Sales.salesBy (.column Sales.city)) =
      some [[true], []] := by
    decide +kernel
  obtain ⟨p, pushed, -⟩ := Option.map_eq_some_iff.1 isPushed
  have each := dimensionsFor_rows_of_pushAggregate? (x := Sales.cityOrAll) rfl pushed
  obtain ⟨first, rest, ofFirst, others, sets⟩ := List.forall₂_cons_left_iff.1 each
  obtain ⟨second, rest, ofSecond, none, rfl⟩ := List.forall₂_cons_left_iff.1 others
  cases none
  exact ⟨p, first, second, pushed, sets, ofFirst.2.2.2 (by decide), ofSecond.2.2.2 (by decide)⟩

/-- Under another name, the city is grouped by in the second set as well, where it is null: the
dimension is the script of a null constant. -/
theorem not_dimensionsFor_locality :
    ∃ p first second row, pushAggregate? Sales.catalog Sales.anyScript .allEnabled
        (Sales.salesBy Sales.locality) = some p ∧ p.sets = [first, second] ∧
      Sales.cityOrAll.rows[1]? = some row ∧ Sales.locality.stripAlias = .column Sales.city ∧
      (row.resolve (.column Sales.city)).isNullLiteral = true ∧
      ¬ second.query.DimensionsFor [] := by
  have scripted : Sales.nativeDimensions? (Sales.salesBy Sales.locality) =
      some [[true], [false]] := by
    decide +kernel
  obtain ⟨p, pushed, dimensions⟩ := Option.map_eq_some_iff.1 scripted
  obtain ⟨first, rest, sets, -, others⟩ := List.map_eq_cons_iff.1 dimensions
  obtain ⟨second, rfl, same⟩ := List.map_eq_singleton_iff.1 others
  refine ⟨p, first, second, _, pushed, sets, rfl, rfl, rfl, fun none => ?_⟩
  have length := congrArg List.length same
  rw [List.length_map, ← none.length_eq] at length
  cases length

end Rollup
