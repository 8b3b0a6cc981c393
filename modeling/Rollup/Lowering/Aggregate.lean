import Rollup.Lowering.Scope
import Rollup.Query.Alias

/-!
# Aggregations of aggregates

An aggregate becomes aggregations of the query in the first way that fits: a row count, a count of
distinct values, an aggregator over a metric, or a script. Averages are a quotient of two
aggregations; an average that the store cannot take of a bare metric is scripted or fails.
-/

namespace Rollup.Scope

/-- Records the aggregate for which a named result stands. -/
def recordCall (q : Query) (name : String) (call : AggregateCall) (storeType : StoreType) : Query :=
  q.addResult { name, expr := call.toExpr, storeType, hostType := call.dataType }

/-- Computes an aggregate by one aggregation under a generated name. -/
def addCall (q : Query) (call : AggregateCall) (aggregation : String → Aggregation)
    (storeType : StoreType) : Query :=
  let (name, q) := q.freshAlias
  recordCall (q.addAggregation (aggregation name)) name call storeType

/-- Computes an aggregate as the quotient of two aggregations. -/
def addQuotient (q : Query) (call : AggregateCall) (numerator denominator : String) : Query :=
  let (name, q) := q.freshAlias
  recordCall (q.addPostAggregation (.division name numerator denominator)) name call .double

/-- Counts rows: by the sum of the metric that holds their number, or by the row counter. -/
def rowCount (r : Relation) (name : String) : Aggregation :=
  match r.rowCount? with
  | some metric => .native .longSum name (some metric.name)
  | none => .native .count name none

/-- Only complete aggregates have a native form. -/
def isNativeMode (call : AggregateCall) : Bool := call.mode == .complete

/-- The aggregate counts something that every row has: nothing, the constant one, or a column that
is named for it. -/
def countsRows (s : Scope) (call : AggregateCall) : Bool :=
  match call.args with
  | [] => true
  | [arg] =>
    match (s.resolve arg).stripAlias.stripCasts with
    | .literal value _ => value.isOne
    | .column attr => attr.name == "1"
    | _ => false
  | _ => false

/-- A row count. -/
def rowCountCall? (s : Scope) (q : Query) (call : AggregateCall) : Option Query :=
  if call.func == .count && !call.distinct && isNativeMode call && s.countsRows call then
    some (addCall q call (rowCount q.relation) .long)
  else none

/-- The aggregate counts distinct values. -/
def countsDistinct (call : AggregateCall) : Bool :=
  match call.func with
  | .approxCountDistinct => true
  | .count => call.distinct
  | _ => false

/-- Counts the distinct values of a column: from its sketch if the relation prefers sketches, and
otherwise from the column if it is a dimension. -/
def distinctCount? (r : Relation) (column : Column) : Option (String → Aggregation) :=
  match if r.prefersSketches then column.sketch? else none with
  | some sketch => some fun name => .hyperUnique name sketch
  | none =>
    if column.kind == .dimension then some fun name => .cardinality name [column.name] else none

/-- A count of distinct values. -/
def distinctCall? (s : Scope) (q : Query) (call : AggregateCall) : Option Query :=
  if countsDistinct call then
    (s.argumentColumn? q call).bind fun column =>
      (distinctCount? q.relation column).map fun aggregation => addCall q call aggregation .double
  else none

/-- Aggregator of the store for an aggregate over a metric of a type. -/
def nativeFunction? (func : AggregateFunction) (type : DataType) : Option NativeFunction :=
  match func, type.isIntegral with
  | .sum, true => some .longSum
  | .sum, false => some .doubleSum
  | .min, true => some .longMin
  | .min, false => some .doubleMin
  | .max, true => some .longMax
  | .max, false => some .doubleMax
  | _, _ => none

/-- The declared type of the aggregate is already the wider one. -/
def isTypeCompatible (call : AggregateCall) (column : Column) : Bool :=
  call.dataType.common? column.dataType == some call.dataType

/-- The average of a metric: its sum over the number of rows. -/
def metricAverage? (q : Query) (call : AggregateCall) (column : Column) : Option Query :=
  (nativeFunction? .sum column.dataType).map fun function =>
    let (sum, q) := q.freshAlias
    let q := q.addAggregation (.native function sum (some column.name))
    let (count, q) := q.freshAlias
    let q := q.addAggregation (rowCount q.relation count)
    addQuotient q call sum count

/-- An aggregate over a numeric metric. -/
def metricCall? (s : Scope) (q : Query) (call : AggregateCall) : Option Query :=
  if call.distinct then none
  else (s.argumentColumn? q call).bind fun column =>
    if column.kind == .metric && column.dataType.isNumeric then
      if call.func == .avg then metricAverage? q call column
      else if isTypeCompatible call column then
        (nativeFunction? call.func column.dataType).map fun function =>
          addCall q call (fun name => .native function name (some column.name)) function.storeType
      else none
    else none

/-- A native form other than a row count. -/
def nativeCall? (s : Scope) (q : Query) (call : AggregateCall) : Option Query :=
  if isNativeMode call then (s.distinctCall? q call).or (s.metricCall? q call) else none

/-- The aggregate with its arguments over the relation of the store. -/
def resolveCall (s : Scope) (call : AggregateCall) : AggregateCall :=
  { call with args := call.args.map s.resolve }

/-- A scripted aggregate. -/
def scriptCall? (s : Scope) (q : Query) (call : AggregateCall) : Option Query :=
  (s.compile? q (s.resolveCall call).toExpr .aggregate).map fun function =>
    addCall q call (fun name => .script name function) (.of call.dataType)

/-- The average needs scripts: they are allowed, and the argument is not a bare metric. -/
def needsScriptAverage (s : Scope) (q : Query) (call : AggregateCall) : Bool :=
  call.func == .avg && !call.distinct && s.settings.scriptFallback &&
    !(s.argumentColumn? q call).any fun column => column.kind == .metric

/-- A scripted average: a scripted sum over a scripted count. -/
def scriptAverage? (s : Scope) (q : Query) (call : AggregateCall) : Option Query :=
  let source := s.resolveCall call
  let sum := AggregateCall.toExpr { source with func := .sum, dataType := .float64 }
  let count := AggregateCall.toExpr { source with func := .count, dataType := .int64 }
  (s.compile? q sum .aggregate).bind fun sumFunction =>
    let (sumName, q) := q.freshAlias
    let q := q.addAggregation (.script sumName sumFunction)
    (s.compile? q count .aggregate).map fun countFunction =>
      let (countName, q) := q.freshAlias
      let q := q.addAggregation (.script countName countFunction)
      addQuotient q call sumName countName

/-- Computes an aggregate; one that the host fills in is left out. -/
def lowerCall? (s : Scope) (q : Query) (call : AggregateCall) : Option Query :=
  if s.isOverridden call.id then some q
  else if s.needsScriptAverage q call then s.scriptAverage? q call
  else (s.rowCountCall? q call).or <| (s.nativeCall? q call).or <| s.scriptCall? q call

end Rollup.Scope
