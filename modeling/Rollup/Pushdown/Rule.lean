import Rollup.Lowering.Aggregate
import Rollup.Lowering.Dimension
import Rollup.Pushdown.Pushed

/-!
# Pushing an aggregate

An aggregate is pushed as a whole or not at all: its input must be a complete source, and every
grouping set must have a native form. The source of an aggregate is its input as the store sees it:
a query over one relation, what the host would still have to compute, and which store column each
renamed column reads. Scans of known relations have a source, and so do projections and filters over
them. A projection of columns is absorbed; everything else is left over for the host. Each grouping
set starts from the query of the source, so that no set sees another.
-/

namespace Rollup

/-! ## Sources -/

/-- The input of an aggregate as the store sees it. -/
structure Source where
  query : Query
  /-- Expressions that the host would still have to compute. -/
  residual : List Expr := []
  /-- Store column that each column put out by a projection reads. -/
  storeColumns : Table ExprId String := .empty

namespace Source

/-- Nothing is left for the host. -/
def isComplete (s : Source) : Bool := s.residual.isEmpty

/-- Store column that a column reads. Columns of a scan carry its name. -/
def storeName (s : Source) (attr : Attribute) : String :=
  (s.storeColumns.get? attr.id).getD attr.name

/-- Absorbs a projected column, and leaves any other expression to the host. -/
def project (s : Source) (e : Expr) : Source :=
  match e.stripAlias, e.outputId? with
  | .column attr, some id => { s with storeColumns := s.storeColumns.insert id (s.storeName attr) }
  | _, _ => { s with residual := s.residual ++ [e] }

/-- Leaves an expression to the host. -/
def leave (s : Source) (e : Expr) : Source := { s with residual := s.residual ++ [e] }

/-- Source of a plan over the relations of a catalog. -/
def ofPlan? (catalog : Catalog) : Plan → Option Source
  | .scan table _ => (catalog.relation? table).map fun relation => { query := { relation } }
  | .project input expressions => (ofPlan? catalog input).map fun s => expressions.foldl project s
  | .filter input predicate => (ofPlan? catalog input).map fun s => s.leave predicate
  | .expand _ _ _ | .aggregate _ _ _ => none

end Source

/-! ## The rule -/

/-- What the pushdown of an aggregate depends on. -/
structure Rule where
  /-- Source of the input of an aggregate. -/
  source? : Plan → Option Source
  scripts : ScriptCompiler
  settings : Settings

namespace Rule

/-- The rule over the relations of a catalog. -/
def ofCatalog (catalog : Catalog) (scripts : ScriptCompiler) (settings : Settings) : Rule :=
  { source? := Source.ofPlan? catalog, scripts, settings }

/-- Surroundings of the expressions of a grouping set. -/
def scope (rule : Rule) (source : Source) (set : GroupingSet) : Scope :=
  { settings := rule.settings, scripts := rule.scripts, row? := set.row?,
    overrides := set.overrides, storeColumns := source.storeColumns }

/-- Query of a grouping set: its dimensions, then its aggregates. -/
def lowerSet? (rule : Rule) (source : Source) (set : GroupingSet) : Option PushedSet :=
  let scope := rule.scope source set
  (set.dimensions.foldlM (fun q pair => scope.lowerGroup? q pair.1 pair.2) source.query).bind
    fun q => (set.calls.foldlM scope.lowerCall? q).map fun query =>
      { query, overrides := set.overrides }

/-- Pushes an aggregate, given its parts and the expansion that it reads. -/
def pushOver? (rule : Rule) (expansion? : Option Expansion) (input : Plan)
    (groupBy aggregates : List Expr) : Option PushedAggregate :=
  if expansion?.isSome && !rule.settings.pushGroupingSets then none
  else (rule.source? ((expansion?.map Expansion.input).getD input)).bind fun source =>
    if source.isComplete then
      ((GroupingSet.decompose expansion? groupBy aggregates).mapM (rule.lowerSet? source)).map
        fun sets => { sets, groupBy, aggregates }
    else none

/-- Pushes a plan whose root is an aggregate. -/
def push? (rule : Rule) : Plan → Option PushedAggregate
  | .aggregate input groupBy aggregates =>
    rule.pushOver? (Expansion.ofPlan? input) input groupBy aggregates
  | _ => none

end Rule

end Rollup
