import Rollup.Proofs.Naming

/-!
# Grouping without an expansion

An aggregate without an expansion has a single grouping set, which should be grouped by every
grouping expression except null constants. It is, unless a grouping expression is a column under a
name that numbers grouping sets: such a column is left out here as well, although nothing has been
expanded and the host fills in no constant for it.
-/

namespace Rollup

/-- The dimensions of a query stand for grouping expressions, one for each and in their order: the
result column under the name of a dimension holds the grouping expression. -/
def Query.DimensionsFor (q : Query) (groups : List Expr) : Prop :=
  List.Forall₂ (fun g d => ∃ r, q.result? d.outputName = some r ∧ r.expr = g) groups q.dimensions

/-- The dimensions of a query stand for one list of grouping expressions. -/
theorem Query.DimensionsFor.unique {q : Query} {groups others : List Expr}
    (stands : q.DimensionsFor groups) (also : q.DimensionsFor others) : groups = others := by
  refine Relator.LeftUnique.forall₂ ?_ stands also
  rintro g h d ⟨r, found, rfl⟩ ⟨r', found', rfl⟩
  cases found.symm.trans found'
  rfl

/-- A plan that is neither an expansion nor a projection of one has no expansion to read. -/
theorem Expansion.ofPlan?_eq_none {input : Plan}
    (direct : ∀ child projections output, input ≠ .expand child projections output)
    (through : ∀ child projections output expressions,
      input ≠ .project (.expand child projections output) expressions) :
    ofPlan? input = none := by
  cases input with
  | scan | filter | aggregate => rfl
  | expand child projections output => exact absurd rfl (direct child projections output)
  | project below expressions =>
    cases below with
    | scan | filter | project | aggregate => rfl
    | expand child projections output =>
      exact absurd rfl (through child projections output expressions)

/-- Two conditions keep the same of a list exactly if they agree on its elements. -/
theorem filter_eq_filter_iff {α : Type} {p q : α → Bool} {xs : List α} :
    xs.filter p = xs.filter q ↔ ∀ x ∈ xs, p x = q x := by
  constructor
  · intro same x given
    rw [Bool.eq_iff_iff]
    have kept : x ∈ xs.filter p ↔ x ∈ xs.filter q := by rw [same]
    simpa [given] using kept
  · exact List.filter_congr

namespace GroupingSet

/-- A column that numbers grouping sets is no null constant. -/
theorem isNullLiteral_of_isMarker {g : Expr} (marks : isMarker g = true) :
    g.isNullLiteral = false := by
  cases g with
  | column | aliased => rfl
  | literal | cast | scalar | binary | aggregate => cases marks

/-- Without an expansion, the store must group by all but null constants and markers. -/
theorem dimensions_plain (groupBy outputs : List Expr) :
    (plain groupBy outputs).dimensions =
      (groupBy.filter fun g => !isMarker g && !g.isNullLiteral).map fun g => (g, g) := by
  have paired := zip_map_self groupBy id
  rw [List.map_id] at paired
  rw [dimensions, plain, paired, List.filter_map]
  rfl

/-- Leaving markers out changes nothing exactly if there are none. -/
theorem filter_unmarked_iff (groupBy : List Expr) :
    (groupBy.filter fun g => !isMarker g && !g.isNullLiteral) =
        (groupBy.filter fun g => !g.isNullLiteral) ↔
      ∀ g ∈ groupBy, isMarker g = false := by
  rw [filter_eq_filter_iff]
  refine forall₂_congr fun g _ => ?_
  cases marks : isMarker g with
  | false => cases g.isNullLiteral <;> decide
  | true =>
    rw [isNullLiteral_of_isMarker marks]
    decide

end GroupingSet

/-- The dimensions of a lowered query stand for the grouping expressions that the set has to
group by. -/
theorem Rule.Lowers.dimensionsFor {rule : Rule} {source : Source} {set : GroupingSet}
    {pushed : PushedSet} (lowers : rule.Lowers source set pushed)
    (start : source.query.dimensions = []) :
    pushed.query.DimensionsFor (set.dimensions.map Prod.fst) := by
  obtain ⟨ds, each, added⟩ := lowers.dimensions
  rw [start, List.nil_append] at added
  rw [Query.DimensionsFor, List.forall₂_map_left_iff, added]
  exact each.imp fun pair d recorded => recorded.1

/-- Without an expansion, the single query of a pushed aggregate is grouped by every grouping
expression that is neither a null constant nor a column under the name of a marker, in order. It is
therefore grouped by everything that was asked for exactly if no such column is asked for. -/
theorem dimensionsFor_of_pushAggregate? {catalog : Catalog} {scripts : ScriptCompiler}
    {settings : Settings} {input : Plan} {groupBy outputs : List Expr} {p : PushedAggregate}
    (direct : ∀ child projections output, input ≠ .expand child projections output)
    (through : ∀ child projections output expressions,
      input ≠ .project (.expand child projections output) expressions)
    (pushed : pushAggregate? catalog scripts settings (.aggregate input groupBy outputs) =
      some p) :
    ∃ set, p.sets = [set] ∧
      set.query.DimensionsFor
        (groupBy.filter fun g => !GroupingSet.isMarker g && !g.isNullLiteral) ∧
      (set.query.DimensionsFor (groupBy.filter fun g => !g.isNullLiteral) ↔
        ∀ g ∈ groupBy, GroupingSet.isMarker g = false) := by
  obtain ⟨source, known, -, lowered⟩ := Rule.exists_source_of_push? pushed
  obtain ⟨r, empty⟩ := Source.query_eq_of_ofPlan? known
  rw [Plan.groupingSets, Expansion.ofPlan?_eq_none direct through] at lowered
  obtain ⟨set, rest, lowers, none, sets⟩ := List.forall₂_cons_left_iff.1 lowered
  cases none
  have stands := lowers.dimensionsFor (by rw [empty])
  rw [GroupingSet.dimensions_plain, List.map_map] at stands
  change set.query.DimensionsFor (List.map id _) at stands
  rw [List.map_id] at stands
  refine ⟨set, sets, stands, ?_⟩
  rw [← GroupingSet.filter_unmarked_iff]
  constructor
  · exact stands.unique
  · intro same
    exact same ▸ stands

namespace Sales

/-- Sales by city and country, with a null constant between them. -/
def perCity : Plan :=
  .aggregate scan [.column scannedCity, .null .string, .column scannedCountry]
    [.column scannedCity, .column scannedCountry, .aliased count.toExpr "sales" ⟨23⟩]

end Sales

/-- Sales by city and country have these two dimensions. -/
theorem dimensionsFor_perCity :
    ∃ p set, pushAggregate? Sales.catalog .none .allEnabled Sales.perCity = some p ∧
      p.sets = [set] ∧
      set.query.DimensionsFor [.column Sales.scannedCity, .column Sales.scannedCountry] := by
  have isPushed : (pushAggregate? Sales.catalog .none .allEnabled Sales.perCity).isSome = true := by
    decide +kernel
  obtain ⟨p, pushed⟩ := Option.isSome_iff_exists.1 isPushed
  obtain ⟨set, sets, -, all⟩ := dimensionsFor_of_pushAggregate?
    (fun _ _ _ => Plan.noConfusion) (fun _ _ _ _ => Plan.noConfusion) pushed
  exact ⟨p, set, pushed, sets, all.2 (by decide)⟩

namespace Visits

/-- Visits by the group of the visitor, which the store calls `gid`. -/
def relation : Relation where
  name := "visits"
  timeColumn := "ts"
  columns := [
    { name := "gid", kind := .dimension, dataType := .string },
    { name := "n", kind := .metric, dataType := .int64, isRowCount := true }]

/-- Group of the visitor. -/
def gid : Attribute := { id := ⟨1⟩, name := "gid", dataType := .string }

/-- The number of visits. -/
def count : AggregateCall := { id := ⟨2⟩, func := .count, dataType := .int64, args := [] }

/-- The number of visits by the group of the visitor. -/
def perGroup : Plan :=
  .aggregate (.scan "visits" [gid]) [.column gid]
    [.column gid, .aliased count.toExpr "visits" ⟨3⟩]

end Visits

/-- Visits by a column `gid` are pushed as a query without dimensions, which counts all visits. -/
theorem not_dimensionsFor_perGroup :
    ∃ p set, pushAggregate? (.ofList [Visits.relation]) .none .allEnabled Visits.perGroup =
        some p ∧ p.sets = [set] ∧ (Expr.column Visits.gid).isNullLiteral = false ∧
      ¬ set.query.DimensionsFor [.column Visits.gid] := by
  have ungrouped : ((pushAggregate? (.ofList [Visits.relation]) .none .allEnabled
      Visits.perGroup).map fun p => p.sets.map fun set => set.query.dimensions) =
        some [[]] := by
    decide +kernel
  obtain ⟨p, pushed, sets⟩ := Option.map_eq_some_iff.1 ungrouped
  obtain ⟨set, single, dimensions⟩ := List.map_eq_singleton_iff.1 sets
  refine ⟨p, set, pushed, single, rfl, ?_⟩
  intro stands
  have length := stands.length_eq
  rw [dimensions] at length
  cases length

end Rollup
