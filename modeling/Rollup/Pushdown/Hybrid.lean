import Rollup.Pushdown.Rule

/-!
# Hybrid plans

A host plan in which some aggregates are answered by the store. `Rule.apply` pushes the topmost
aggregates that can be pushed; `optimize` does so over a catalog, once the settings are valid.
-/

namespace Rollup

/-- A host plan, some of whose aggregates are answered by the store. -/
inductive HybridPlan where
  | scan (table : String) (output : List Attribute)
  | filter (input : HybridPlan) (predicate : Expr)
  | project (input : HybridPlan) (expressions : List Expr)
  | expand (input : HybridPlan) (projections : List (List Expr)) (output : List Attribute)
  | aggregate (input : HybridPlan) (groupBy aggregates : List Expr)
  | store (pushed : PushedAggregate)

namespace HybridPlan

/-- The plan with nothing pushed. -/
def ofPlan : Plan → HybridPlan
  | .scan table output => scan table output
  | .filter input predicate => filter (ofPlan input) predicate
  | .project input expressions => project (ofPlan input) expressions
  | .expand input projections output => expand (ofPlan input) projections output
  | .aggregate input groupBy aggregates => aggregate (ofPlan input) groupBy aggregates

/-- The host plan, if nothing is pushed. -/
def toPlan? : HybridPlan → Option Plan
  | scan table output => some (.scan table output)
  | filter input predicate => input.toPlan?.map fun p => .filter p predicate
  | project input expressions => input.toPlan?.map fun p => .project p expressions
  | expand input projections output => input.toPlan?.map fun p => .expand p projections output
  | aggregate input groupBy aggregates =>
    input.toPlan?.map fun p => .aggregate p groupBy aggregates
  | store _ => none

/-- Columns that a plan puts out. -/
def output : HybridPlan → List Attribute
  | scan _ output | expand _ _ output => output
  | filter input _ => input.output
  | project _ expressions => expressions.filterMap Expr.attribute?
  | aggregate _ _ aggregates => aggregates.filterMap Expr.aggregateOutput?
  | store pushed => pushed.output

/-- The plan below the root. -/
def input? : HybridPlan → Option HybridPlan
  | scan _ _ | store _ => none
  | filter input _ | project input _ | expand input _ _ | aggregate input _ _ => some input

/-- The root is answered by the store. -/
def isPushed : HybridPlan → Bool
  | store _ => true
  | _ => false

/-- The aggregates that the store answers, from the root down. -/
def pushed : HybridPlan → List PushedAggregate
  | scan _ _ => []
  | filter input _ | project input _ | expand input _ _ | aggregate input _ _ => input.pushed
  | store pushed => [pushed]

/-- A plan with nothing pushed is a host plan. -/
@[simp] theorem toPlan?_ofPlan (p : Plan) : (ofPlan p).toPlan? = some p := by
  induction p <;> simp_all [ofPlan, toPlan?]

/-- A plan with nothing pushed puts out the columns of the host plan. -/
@[simp] theorem output_ofPlan (p : Plan) : (ofPlan p).output = p.output := by
  induction p <;> simp_all [ofPlan, output, Plan.output]

/-- A plan with nothing pushed has no pushed aggregates. -/
@[simp] theorem pushed_ofPlan (p : Plan) : (ofPlan p).pushed = [] := by
  induction p <;> simp_all [ofPlan, pushed]

end HybridPlan

/-- Pushes the topmost aggregates that can be pushed. -/
def Rule.apply (rule : Rule) : Plan → HybridPlan
  | .scan table output => .scan table output
  | .filter input predicate => .filter (rule.apply input) predicate
  | .project input expressions => .project (rule.apply input) expressions
  | .expand input projections output => .expand (rule.apply input) projections output
  | .aggregate input groupBy aggregates =>
    match rule.push? (.aggregate input groupBy aggregates) with
    | some pushed => .store pushed
    | none => .aggregate (rule.apply input) groupBy aggregates

/-- Pushes a single aggregate over the relations of a catalog. -/
def pushAggregate? (catalog : Catalog) (scripts : ScriptCompiler) (settings : Settings)
    (plan : Plan) : Option PushedAggregate :=
  (Rule.ofCatalog catalog scripts settings).push? plan

/-- Pushes what can be pushed over the relations of a catalog, under valid settings. -/
def optimize (catalog : Catalog) (scripts : ScriptCompiler) (settings : Settings) (plan : Plan) :
    Except Failure HybridPlan :=
  settings.validate.map fun _ => (Rule.ofCatalog catalog scripts settings).apply plan

end Rollup
