import Rollup.Expr.Equality

/-!
# Host plans

A plan reads a table and passes its rows up through filters, projections, expansions and
aggregates. An expansion writes one row per projection for each row that it reads; grouping sets
are an aggregate over an expansion that nulls out the columns outside each set.
-/

namespace Rollup

/-- A host plan. -/
inductive Plan where
  | scan (table : String) (output : List Attribute)
  | filter (input : Plan) (predicate : Expr)
  | project (input : Plan) (expressions : List Expr)
  | expand (input : Plan) (projections : List (List Expr)) (output : List Attribute)
  | aggregate (input : Plan) (groupBy aggregates : List Expr)

namespace Expr

/-- Column that an output of an aggregate node adds; a bare aggregate is named for its function. -/
def aggregateOutput? : Expr → Option Attribute
  | aggregate head _ => some { id := head.id, name := head.func.name, dataType := head.dataType }
  | e => e.attribute?

/-- Rows of expressions are the same if they are built alike, row by row. -/
def sameRows : List (List Expr) → List (List Expr) → Bool
  | [], [] => true
  | r :: rs, s :: ss => sameAll r s && sameRows rs ss
  | _, _ => false

end Expr

namespace Plan

/-- Columns that a plan puts out. -/
def output : Plan → List Attribute
  | scan _ output | expand _ _ output => output
  | filter input _ => input.output
  | project _ expressions => expressions.filterMap Expr.attribute?
  | aggregate _ _ aggregates => aggregates.filterMap Expr.aggregateOutput?

/-- The plan below the root. -/
def input? : Plan → Option Plan
  | scan _ _ => none
  | filter input _ | project input _ | expand input _ _ | aggregate input _ _ => some input

/-- Name of the root. -/
def nodeName : Plan → String
  | scan _ _ => "Scan"
  | filter _ _ => "Filter"
  | project _ _ => "Project"
  | expand _ _ _ => "Expand"
  | aggregate _ _ _ => "Aggregate"

/-- The plan and the plans below it, from the root down. -/
def chain : Plan → List Plan
  | scan table output => [scan table output]
  | filter input predicate => filter input predicate :: input.chain
  | project input expressions => project input expressions :: input.chain
  | expand input projections output => expand input projections output :: input.chain
  | aggregate input groupBy aggregates => aggregate input groupBy aggregates :: input.chain

/-- The plans are built alike from the same expressions. -/
def same : Plan → Plan → Bool
  | scan t o, scan u p => t == u && o == p
  | filter a e, filter b f => a.same b && e.same f
  | project a es, project b fs => a.same b && Expr.sameAll es fs
  | expand a rs o, expand b ss p => a.same b && Expr.sameRows rs ss && o == p
  | aggregate a gs es, aggregate b hs fs => a.same b && Expr.sameAll gs hs && Expr.sameAll es fs
  | _, _ => false

/-- The nodes of a chain are linked by their inputs. -/
theorem chain_eq (p : Plan) : p.chain = p :: (p.input?.map chain).getD [] := by
  cases p <;> rfl

end Plan

end Rollup
