import Rollup.Expr.Equality
import Rollup.Grouping.Expansion
import Rollup.Table
import Rollup.Text.Case

/-!
# Grouping sets

An aggregate without an expansion has one grouping set. An aggregate over an expansion has one for
each row: its grouping expressions are resolved in that row, those that are null there are left
out, and the outputs that the row settles are overridden by constants. These are known without
asking the store: the grouping-id marker, which numbers the sets, and every output whose only input
is nulled out in the set.
-/

namespace Rollup

/-! ## Overrides -/

/-- The column numbers the grouping sets; it is known by its name. -/
def Attribute.isGroupingId (attr : Attribute) : Bool :=
  Text.sameName attr.name "spark_grouping_id" || Text.sameName attr.name "gid"

namespace Expr

/-- The only column from which an output is computed: the column itself, or the single argument of
an aggregate under its numeric casts. -/
def soleColumn? : Expr → Option Attribute
  | column attr => some attr
  | aliased inner _ _ => inner.soleColumn?
  | aggregate _ [arg] => arg.stripNumericCasts.column?
  | _ => none

/-- Typed null for an output whose only input has a null constant in this row. -/
def nullOverride? (e : Expr) (rowValue? : Option Expr) : Option Expr :=
  match e.soleColumn?, rowValue? with
  | some _, some value => if value.isNullLiteral then some (null e.dataType) else none
  | _, _ => none

/-- Constant of the grouping-id marker in this row, or a typed null if the row has no constant for
it. -/
def markerOverride? (e : Expr) (rowValue? : Option Expr) : Option Expr :=
  match e.soleColumn? with
  | some attr =>
    if attr.isGroupingId then
      match rowValue? with
      | some (literal value type) => some (literal value type)
      | _ => some (null e.dataType)
    else none
  | none => none

/-- Constant that the host fills in for an output, given the value of its only input in this
row. -/
def override? (e : Expr) (rowValue? : Option Expr) : Option Expr :=
  (e.markerOverride? rowValue?).or (e.nullOverride? rowValue?)

end Expr

/-! ## Sets -/

/-- One grouping set of an aggregate. -/
structure GroupingSet where
  groupBy : List Expr
  /-- What the grouping expressions stand for in this set, in the same order. -/
  expanded : List Expr
  /-- Outputs of the aggregate. -/
  aggregates : List Expr
  /-- Row of the expansion; an aggregate without one has a single set. -/
  row? : Option ExpansionRow
  /-- Constants that the host fills in, by the identity of the output. -/
  overrides : Table ExprId Expr

namespace ExpansionRow

/-- An output and the aggregates inside it, each with its identity. -/
def parts (e : Expr) : List (ExprId × Expr) :=
  match e.outputId? with
  | some id => (id, e) :: e.aggregates.map fun call => (call.id, call.toExpr)
  | none => []

/-- Places in the row of the only inputs of the outputs and of the aggregates inside them. -/
def positions (x : ExpansionRow) (outputs : List Expr) : Table ExprId Nat :=
  .ofList (outputs.flatMap fun e => (parts e).filterMap fun part =>
    (part.2.soleColumn?.bind x.position?).map fun place => (part.1, place))

/-- Constants for one output, given the value in the row of the only input of each identity: for
the output itself, or else for the aggregates inside it. -/
def outputOverrides (inputValue? : ExprId → Option Expr) (e : Expr) : List (ExprId × Expr) :=
  match e.outputId? with
  | none => []
  | some id =>
    match e.override? (inputValue? id) with
    | some constant => [(id, constant)]
    | none => e.aggregates.filterMap fun call =>
      (call.toExpr.nullOverride? (inputValue? call.id)).map fun constant => (call.id, constant)

/-- Value in the row at the place that a table of places gives for an identity. -/
def valueAt? (x : ExpansionRow) (positions : Table ExprId Nat) (id : ExprId) : Option Expr :=
  (positions.get? id).bind fun place => x.row[place]?

/-- Constants that the host fills in for the outputs of an aggregate in this row. -/
def overrides (x : ExpansionRow) (outputs : List Expr) : Table ExprId Expr :=
  let positions := x.positions outputs
  .ofList (outputs.flatMap (outputOverrides (x.valueAt? positions)))

end ExpansionRow

namespace GroupingSet

/-- The grouping set of an aggregate without an expansion. -/
def plain (groupBy aggregates : List Expr) : GroupingSet :=
  { groupBy, expanded := groupBy, aggregates, row? := none, overrides := .empty }

/-- The grouping set of one row of an expansion. -/
def ofRow (groupBy aggregates : List Expr) (x : ExpansionRow) : GroupingSet :=
  { groupBy, expanded := groupBy.map x.resolve, aggregates, row? := some x,
    overrides := x.overrides aggregates }

/-- The grouping sets of an aggregate, in the order of the rows of its expansion. -/
def decompose (expansion? : Option Expansion) (groupBy aggregates : List Expr) :
    List GroupingSet :=
  match expansion? with
  | some x => x.rows.map (ofRow groupBy aggregates)
  | none => [plain groupBy aggregates]

/-- The grouping expression numbers the grouping sets. -/
def isMarker (e : Expr) : Bool :=
  match e.stripAlias with
  | .column attr => attr.isGroupingId
  | _ => false

/-- The grouping expressions by which the store must group, with what they stand for in this
set. -/
def dimensions (s : GroupingSet) : List (Expr × Expr) :=
  (s.groupBy.zip s.expanded).filter fun pair => !isMarker pair.1 && !pair.2.isNullLiteral

/-- The output repeats a grouping expression. -/
def isGroupReference (s : GroupingSet) (e : Expr) : Bool :=
  match e.stripAlias with
  | .column attr => s.groupBy.any fun g => g.outputId? == some attr.id
  | inner => s.groupBy.any fun g => g.stripAlias.same inner

/-- The host fills in a constant for this identity. -/
def isOverridden (s : GroupingSet) (id : ExprId) : Bool := s.overrides.contains id

/-- The output is computed by the store or from what the store computes. -/
def isComputed (s : GroupingSet) (e : Expr) : Bool :=
  !e.outputId?.any s.isOverridden && !s.isGroupReference e

/-- The aggregates that the store must compute for this set, one for each identity. -/
def calls (s : GroupingSet) : List AggregateCall :=
  distinctBy (fun call => call.id) ((s.aggregates.filter s.isComputed).flatMap fun e =>
    e.aggregates.filter fun call => !s.isOverridden call.id)

end GroupingSet

end Rollup
