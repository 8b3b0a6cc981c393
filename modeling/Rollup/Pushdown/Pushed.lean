import Rollup.Expr.Equality
import Rollup.Expr.Peel
import Rollup.Plan
import Rollup.Query.Basic

/-!
# Pushed aggregates

An aggregate that the store answers: one query for each grouping set, with the constants that the
host fills in. `PushedSet.binding` says where the host finds each output.
-/

namespace Rollup

/-- The store query of one grouping set. -/
structure PushedSet where
  query : Query
  /-- Constants that the host fills in, by the identity of the output. -/
  overrides : Table ExprId Expr

/-- Where the host finds an output of a pushed grouping set. -/
inductive Binding where
  /-- A constant that the host fills in. -/
  | literal (value : Expr)
  /-- A result column of the query. -/
  | column (name : String) (storeType : StoreType) (hostType : DataType)
  /-- Left to the host to compute from other results. -/
  | unbound

/-- The binding to a result column. -/
def ResultColumn.binding (r : ResultColumn) : Binding := .column r.name r.storeType r.hostType

namespace PushedSet

/-- Result column of an output: by the identity of the aggregate or column under its alias, by its
own identity, or by its expression. -/
def result? (s : PushedSet) (output : Expr) : Option ResultColumn :=
  let inner := output.stripAlias
  let direct := match inner with
    | .aggregate head _ => s.query.resultFor? head.id
    | .column attr => s.query.resultFor? attr.id
    | _ => none
  direct.or <| (output.outputId?.bind s.query.resultFor?).or <|
    s.query.results.values.find? fun r => r.expr.stripAlias.same inner

/-- Where the host finds an output. -/
def binding (s : PushedSet) (output : Expr) : Binding :=
  match output.outputId?.bind s.overrides.get? with
  | some constant => .literal constant
  | none => ((s.result? output).map ResultColumn.binding).getD .unbound

end PushedSet

/-- An aggregate that the store answers. -/
structure PushedAggregate where
  sets : List PushedSet
  groupBy : List Expr
  aggregates : List Expr

namespace PushedAggregate

/-- Columns that the aggregate puts out. -/
def output (p : PushedAggregate) : List Attribute := p.aggregates.filterMap Expr.aggregateOutput?

/-- Where the host finds each output, for each grouping set. -/
def bindings (p : PushedAggregate) : List (List Binding) :=
  p.sets.map fun set => p.aggregates.map set.binding

end PushedAggregate

end Rollup
