import Rollup.Json.Expr
import Rollup.Pushdown.Pushed

/-!
# JSON of store queries

The form in which queries are sent to the store. Aggregations and post-aggregations write their
fields in alphabetical order, everything else in the order of its parts. The relation and the
number of the next generated name are not written.
-/

namespace Rollup.Json

/-- A script. -/
def ofScriptFunction (f : ScriptFunction) : Json :=
  object [("params", ofStrings f.params), ("body", string f.body)]

/-- The derivation of a dimension. -/
def ofExtraction : Extraction → Json
  | .timeFormat format timezone =>
    object [("type", string "timeFormat"), ("format", string format),
      ("timeZone", string timezone)]
  | .timeParse inputFormat outputFormat timezone =>
    object [("type", string "time"), ("timeFormat", string inputFormat),
      ("resultFormat", string outputFormat), ("timeZone", string timezone)]
  | .script function =>
    object [("type", string "javascript"), ("function", ofScriptFunction function)]

/-- A dimension. -/
def ofDimension (d : Dimension) : Json :=
  match d.extraction? with
  | none =>
    object [("type", string "default"), ("dimension", string d.source),
      ("outputName", string d.outputName)]
  | some extraction =>
    object [("type", string "extraction"), ("dimension", string d.source),
      ("outputName", string d.outputName), ("extractionFn", ofExtraction extraction)]

/-- An aggregation. -/
def ofAggregation : Aggregation → Json
  | .native function name (some field) =>
    object [("fieldName", string field), ("name", string name), ("type", string function.name)]
  | .native function name none => object [("name", string name), ("type", string function.name)]
  | .cardinality name fields =>
    object [("byRow", bool false), ("fields", ofStrings fields), ("name", string name),
      ("type", string "cardinality")]
  | .hyperUnique name field =>
    object [("fieldName", string field), ("name", string name), ("type", string "hyperUnique")]
  | .script name function =>
    object [("fieldNames", ofStrings function.params), ("function", string function.body),
      ("name", string name), ("type", string "javascript")]

/-- A reference to a result by name. -/
def ofFieldAccess (field : String) : Json :=
  object [("fieldName", string field), ("type", string "fieldAccess")]

/-- A post-aggregation. -/
def ofPostAggregation (p : PostAggregation) : Json :=
  object [("fields", array (p.fields.map ofFieldAccess)), ("fn", string p.op.symbol),
    ("name", string p.name), ("type", string "arithmetic")]

/-- A result column. -/
def ofResultColumn (r : ResultColumn) : Json :=
  object [("name", string r.name), ("expr", ofExpr r.expr), ("storeType", string r.storeType.name),
    ("hostType", string r.hostType.tag)]

/-- A query. -/
def ofQuery (q : Query) : Json :=
  object [("dimensions", array (q.dimensions.map ofDimension)),
    ("aggregations", array (q.aggregations.map ofAggregation)),
    ("postAggregations", array (q.postAggregations.map ofPostAggregation)),
    ("outputAttributes",
      object (q.results.entries.map fun entry => (entry.1, ofResultColumn entry.2)))]

/-- A pushed grouping set; identities as keys are written in decimal. -/
def ofPushedSet (s : PushedSet) : Json :=
  object [("query", ofQuery s.query),
    ("overrides", object (s.overrides.entries.map fun entry =>
      (toString entry.1.val, ofExpr entry.2)))]

/-- A pushed aggregate. -/
def ofPushedAggregate (p : PushedAggregate) : Json :=
  object [("groupingSets", array (p.sets.map ofPushedSet)),
    ("groupBy", array (ofExprs p.groupBy)), ("aggregates", array (ofExprs p.aggregates))]

/-- Where an output of a pushed grouping set is found. -/
def ofBinding : Binding → Json
  | .literal value => object [("kind", string "literal"), ("value", ofExpr value)]
  | .column name storeType hostType =>
    object [("kind", string "column"), ("name", string name),
      ("storeType", string storeType.name), ("hostType", string hostType.tag)]
  | .unbound => object [("kind", string "unbound")]

end Rollup.Json
