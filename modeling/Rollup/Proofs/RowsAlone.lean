import Rollup.Proofs.Lowered

/-!
# Rows of an expansion alone

An aggregate over an expansion is pushed as a unit, but its grouping sets do not see each other.
Whether a row has a query, and which, depends on that row and on the source below the expansion;
so the aggregate is pushed exactly if it is pushed over each of its rows alone, and then it has the
queries of those pushes in the order of the rows.
-/

namespace Rollup

namespace Expansion

/-- The plan that puts out an expansion, through the projection above it if there is one. -/
def toPlan (x : Expansion) : Plan :=
  match x.project? with
  | some expressions => .project (.expand x.input x.projections x.output) expressions
  | none => .expand x.input x.projections x.output

/-- The expansion with a single row. -/
def only (x : Expansion) (row : List Expr) : Expansion := { x with projections := [row] }

/-- The grouping set of one row of the expansion. -/
def setOf (x : Expansion) (groupBy outputs row : List Expr) : GroupingSet :=
  .ofRow groupBy outputs { project? := x.project?, output := x.output, row }

/-- The plan of an expansion reads this expansion. -/
theorem ofPlan?_toPlan (x : Expansion) : ofPlan? x.toPlan = some x := by
  unfold toPlan
  split
  · rename_i expressions projected
    rw [ofPlan?, ← projected]
  · rename_i direct
    rw [ofPlan?, ← direct]

end Expansion

namespace Rule

/-- The rule pushes grouping sets, and what is below the expansion is complete in the store. -/
structure ReadyFor (rule : Rule) (x : Expansion) (source : Source) : Prop where
  permitted : rule.settings.pushGroupingSets = true
  known : rule.source? x.input = some source
  complete : source.isComplete = true

variable {rule : Rule} {x : Expansion} {groupBy outputs : List Expr}

/-- What is below an expansion is below each of its rows alone. -/
theorem readyFor_only_iff {source : Source} {row : List Expr} :
    rule.ReadyFor (x.only row) source ↔ rule.ReadyFor x source :=
  ⟨fun ready => ⟨ready.permitted, ready.known, ready.complete⟩,
    fun ready => ⟨ready.permitted, ready.known, ready.complete⟩⟩

/-- An aggregate over an expansion is pushed exactly if there is a source below and a query for
each row. -/
theorem push?_toPlan_iff {p : PushedAggregate} :
    rule.push? (.aggregate x.toPlan groupBy outputs) = some p ↔
      ∃ source, rule.ReadyFor x source ∧ (p.groupBy = groupBy ∧ p.aggregates = outputs) ∧
        List.Forall₂ (fun row set =>
          rule.lowerSet? source (x.setOf groupBy outputs row) = some set)
          x.projections p.sets := by
  rw [push?_eq_some_iff, Plan.sourcePlan, Plan.groupingSets, Expansion.ofPlan?_toPlan]
  simp only [Option.isSome_some, Option.map_some, Option.getD_some, GroupingSet.decompose,
    Expansion.rows, List.map_map, List.forall₂_map_left_iff, forall_const]
  constructor
  · rintro ⟨permitted, parts, source, known, complete, lowered⟩
    exact ⟨source, ⟨permitted, known, complete⟩, parts, lowered⟩
  · rintro ⟨source, ready, parts, lowered⟩
    exact ⟨ready.permitted, parts, source, ready.known, ready.complete, lowered⟩

/-- An aggregate over an expansion is pushed exactly if every row has a query over one source. -/
theorem exists_push?_iff :
    (∃ p, rule.push? (.aggregate x.toPlan groupBy outputs) = some p) ↔
      ∃ source, rule.ReadyFor x source ∧ ∀ row ∈ x.projections,
        ∃ set, rule.lowerSet? source (x.setOf groupBy outputs row) = some set := by
  constructor
  · rintro ⟨p, pushed⟩
    obtain ⟨source, ready, -, lowered⟩ := push?_toPlan_iff.1 pushed
    refine ⟨source, ready, fun row given => ?_⟩
    obtain ⟨set, -, here⟩ := Run.exists_item lowered.flip given
    exact ⟨set, here⟩
  · rintro ⟨source, ready, each⟩
    obtain ⟨sets, lowered⟩ := Run.exists_results each
    exact ⟨⟨sets, groupBy, outputs⟩, push?_toPlan_iff.2 ⟨source, ready, ⟨rfl, rfl⟩, lowered⟩⟩

/-- Over an expansion with rows, an aggregate is pushed exactly if it is pushed over each row
alone. -/
theorem exists_push?_iff_only (rows : x.projections ≠ []) :
    (∃ p, rule.push? (.aggregate x.toPlan groupBy outputs) = some p) ↔
      ∀ row ∈ x.projections,
        ∃ p, rule.push? (.aggregate (x.only row).toPlan groupBy outputs) = some p := by
  constructor
  · intro pushed row given
    obtain ⟨source, ready, each⟩ := exists_push?_iff.1 pushed
    exact exists_push?_iff.2 ⟨source, readyFor_only_iff.2 ready,
      List.forall_mem_singleton.2 (each row given)⟩
  · intro alone
    obtain ⟨first, given⟩ := List.exists_mem_of_ne_nil x.projections rows
    obtain ⟨source, ready, -⟩ := exists_push?_iff.1 (alone first given)
    refine exists_push?_iff.2 ⟨source, readyFor_only_iff.1 ready, fun row given => ?_⟩
    -- all rows read one input, so each of them alone has the source of the first
    obtain ⟨other, readyToo, each⟩ := exists_push?_iff.1 (alone row given)
    cases ready.known.symm.trans readyToo.known
    exact each row List.mem_cons_self

/-- The queries of a pushed aggregate over an expansion are those of its rows alone, in order. -/
theorem sets_eq_flatMap {p : PushedAggregate}
    (pushed : rule.push? (.aggregate x.toPlan groupBy outputs) = some p) :
    ∃ alone, List.Forall₂ (fun row single => single.sets.length = 1 ∧
        rule.push? (.aggregate (x.only row).toPlan groupBy outputs) = some single)
        x.projections alone ∧
      p.sets = alone.flatMap PushedAggregate.sets := by
  obtain ⟨source, ready, -, lowered⟩ := push?_toPlan_iff.1 pushed
  let single (set : PushedSet) : PushedAggregate := ⟨[set], groupBy, outputs⟩
  refine ⟨p.sets.map single, List.forall₂_map_right_iff.2 (lowered.imp ?_), ?_⟩
  · intro row set here
    exact ⟨rfl, push?_toPlan_iff.2 ⟨source, readyFor_only_iff.2 ready, ⟨rfl, rfl⟩,
      List.Forall₂.cons here List.Forall₂.nil⟩⟩
  · rw [List.flatMap_map]
    exact (List.flatMap_singleton' p.sets).symm

end Rule

/-- Grouping sets are pushed as a unit and independently of each other: an aggregate over an
expansion with rows is pushed exactly if it is pushed over each row alone, and its sets are then
those of the rows alone, one for each row and in their order. -/
theorem pushAggregate?_rows (catalog : Catalog) (scripts : ScriptCompiler) (settings : Settings)
    {x : Expansion} (rows : x.projections ≠ []) (groupBy outputs : List Expr) :
    ((∃ p, pushAggregate? catalog scripts settings (.aggregate x.toPlan groupBy outputs) =
        some p) ↔
      ∀ row ∈ x.projections, ∃ p, pushAggregate? catalog scripts settings
        (.aggregate (x.only row).toPlan groupBy outputs) = some p) ∧
    ∀ p, pushAggregate? catalog scripts settings (.aggregate x.toPlan groupBy outputs) = some p →
      ∃ alone, List.Forall₂ (fun row single => single.sets.length = 1 ∧
          pushAggregate? catalog scripts settings
            (.aggregate (x.only row).toPlan groupBy outputs) = some single)
          x.projections alone ∧
        p.sets = alone.flatMap PushedAggregate.sets :=
  ⟨Rule.exists_push?_iff_only rows, fun _ pushed => Rule.sets_eq_flatMap pushed⟩

namespace Sales

/-- The expansion of the rollup. -/
def expansion : Expansion := { project? := none, projections, output, input := scan }

/-- A row by the city in capitals, which the store cannot compute without scripts. -/
def capitalRow : List Expr := [
  .column price, .scalar .upper [.column scannedCity], .null .string, .literal (.int 7) .int64]

/-- The expansion of the rollup, with this row as well. -/
def mixed : Expansion := { expansion with projections := projections ++ [capitalRow] }

end Sales

/-- The queries of the rollup are those of its three rows alone. One more row that cannot be pushed
alone keeps all of them from being pushed. -/
theorem pushAggregate?_rows_rollup :
    (∃ p, pushAggregate? Sales.catalog .none .allEnabled Sales.rollup = some p ∧
      p.sets.length = 3 ∧
      ∃ alone, List.Forall₂ (fun row single => single.sets.length = 1 ∧
          pushAggregate? Sales.catalog .none .allEnabled
            (.aggregate (Sales.expansion.only row).toPlan Sales.groupBy Sales.outputs) =
              some single) Sales.projections alone ∧
        p.sets = alone.flatMap PushedAggregate.sets) ∧
    ∀ p, pushAggregate? Sales.catalog .none .allEnabled
      (.aggregate Sales.mixed.toPlan Sales.groupBy Sales.outputs) ≠ some p := by
  constructor
  · obtain ⟨p, pushed, sets⟩ := Sales.exists_pushed
    have rows : Sales.expansion.projections ≠ [] := List.cons_ne_nil _ _
    have unit :=
      pushAggregate?_rows Sales.catalog .none .allEnabled rows Sales.groupBy Sales.outputs
    exact ⟨p, pushed, sets, unit.2 p pushed⟩
  · intro p pushed
    have rows : Sales.mixed.projections ≠ [] := List.cons_ne_nil _ _
    have unit :=
      pushAggregate?_rows Sales.catalog .none .allEnabled rows Sales.groupBy Sales.outputs
    obtain ⟨other, single⟩ := unit.1.1 ⟨p, pushed⟩ Sales.capitalRow
      (List.mem_append_right _ List.mem_cons_self)
    have refused : (pushAggregate? Sales.catalog .none .allEnabled
        (.aggregate (Sales.mixed.only Sales.capitalRow).toPlan Sales.groupBy
          Sales.outputs)).isSome = false := by
      decide +kernel
    rw [single] at refused
    cases refused

end Rollup
