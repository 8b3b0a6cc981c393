import Rollup.Lowering.Scope
import Rollup.Query.Alias

/-!
# Dimensions of grouping expressions

A grouping expression becomes a dimension of the query in the first way that fits: a dimension of
the relation as it is, a formatted point in time, a part of a point in time, or a script that reads
one column. A point in time is the time column, or a text dimension that is read as time.
-/

namespace Rollup

/-! ## Time expressions -/

/-- A dimension derived from a point in time. -/
structure TimeExtraction where
  /-- Store column that is read. -/
  source : String
  extraction : Extraction
  deriving DecidableEq

/-- A point in time that the store can read. -/
inductive TimeSource where
  | timeColumn (name : String)
  /-- A text dimension in a format. -/
  | parsed (dimension inputFormat : String)
  deriving DecidableEq

namespace TimeSource

/-- The point in time that an expression stands for. -/
def ofExpr? (r : Relation) (e : Expr) : Option TimeSource :=
  match e.stripCasts with
  | .column attr => if r.isTimeColumn attr.name then some (timeColumn r.timeColumn) else none
  | .scalar .toTimestamp [text, format] =>
    match text.stripCasts with
    | .column attr =>
      match r.dimension? attr.name, format.stringLiteral? with
      | some dimension, some inputFormat => some (parsed dimension.name inputFormat)
      | _, _ => none
    | _ => none
  | _ => none

/-- The point in time, written in a format. -/
def format (outputFormat timezone : String) : TimeSource → TimeExtraction
  | timeColumn name => { source := name, extraction := .timeFormat outputFormat timezone }
  | parsed dimension inputFormat =>
    { source := dimension, extraction := .timeParse inputFormat outputFormat timezone }

end TimeSource

namespace TimeExtraction

/-- The point in time of an expression, written in a format of a known zone. -/
def of? (r : Relation) (e : Expr) (format timezone : String) : Option TimeExtraction :=
  if Timezone.isKnown timezone then (TimeSource.ofExpr? r e).map (TimeSource.format format timezone)
  else none

/-- A call of `date_format` with a format and possibly a zone, both constants. -/
def ofFormat? (r : Relation) (defaultZone : String) (e : Expr) : Option TimeExtraction :=
  match e.stripCasts with
  | .scalar .dateFormat [time, format] =>
    format.stringLiteral?.bind fun format => of? r time format defaultZone
  | .scalar .dateFormat [time, format, zone] =>
    format.stringLiteral?.bind fun format => zone.stringLiteral?.bind (of? r time format)
  | _ => none

/-- Format that writes the part of a point in time that a function takes. -/
def partFormat? : ScalarFunction → Option String
  | .year => some "yyyy"
  | .month => some "MM"
  | .dayOfMonth => some "dd"
  | .hour => some "HH"
  | .minute => some "mm"
  | _ => none

/-- A call of a function that takes a part of a point in time. -/
def ofPart? (r : Relation) (defaultZone : String) (e : Expr) : Option TimeExtraction :=
  match e.stripAlias.stripCasts with
  | .scalar func [time] => (partFormat? func).bind fun format => of? r time format defaultZone
  | _ => none

end TimeExtraction

/-! ## Dimensions -/

namespace Scope

/-- Groups by a dimension that stands for a grouping expression. -/
def recordDimension (q : Query) (d : Dimension) (group : Expr) (storeType : StoreType) : Query :=
  (q.addDimension d).addResult
    { name := d.outputName, expr := group, storeType, hostType := group.dataType }

/-- A dimension of the relation as it is. -/
def directDimension? (q : Query) (group expanded : Expr) : Option Query :=
  expanded.stripAlias.column?.bind fun attr =>
    (q.relation.dimension? attr.name).map fun column =>
      let (outputName, q) := q.outputName group.outputName?
      recordDimension q { source := column.name, outputName } group (.of column.dataType)

/-- Groups by a dimension derived from a point in time. -/
def extractionDimension (q : Query) (group : Expr) (time : TimeExtraction) : Query :=
  let (outputName, q) := q.outputName group.outputName?
  recordDimension q { source := time.source, outputName, extraction? := some time.extraction }
    group .string

/-- A formatted point in time. -/
def timeFormatDimension? (s : Scope) (q : Query) (group expanded : Expr) : Option Query :=
  (TimeExtraction.ofFormat? q.relation s.settings.timezone expanded.stripAlias).map
    (extractionDimension q group)

/-- A part of a point in time. It is looked for in the grouping expression itself. -/
def timePartDimension? (s : Scope) (q : Query) (group : Expr) : Option Query :=
  (TimeExtraction.ofPart? q.relation s.settings.timezone (s.withStoreNames group)).map
    (extractionDimension q group)

/-- A script that reads one column. -/
def scriptDimension? (s : Scope) (q : Query) (group expanded : Expr) : Option Query :=
  (s.compile? q expanded.stripAlias .row).bind fun function =>
    function.soleParam?.map fun source =>
      let (outputName, q) := q.freshAlias
      recordDimension q { source, outputName, extraction? := some (.script function) } group .string

/-- Groups by a grouping expression, given what it stands for in the grouping set. -/
def lowerGroup? (s : Scope) (q : Query) (group expanded : Expr) : Option Query :=
  let expanded := s.withStoreNames expanded
  (directDimension? q group expanded).or <|
    (s.timeFormatDimension? q group expanded).or <|
    (s.timePartDimension? q group).or <|
    s.scriptDimension? q group expanded

end Scope

end Rollup
