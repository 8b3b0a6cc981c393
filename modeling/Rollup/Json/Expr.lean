import Rollup.Expr.Basic
import Rollup.Json.Basic

/-!
# JSON of expressions

Constants and expressions as tagged objects; a tag without contents is a text.
-/

namespace Rollup

/-- Tag of a data type. -/
def DataType.tag : DataType → String
  | null => "Null"
  | bool => "Bool"
  | int8 => "Int8"
  | int16 => "Int16"
  | int32 => "Int32"
  | int64 => "Int64"
  | float32 => "Float32"
  | float64 => "Float64"
  | string => "String"
  | date => "Date"
  | timestamp => "Timestamp"

/-- Tag of a scalar function. -/
def ScalarFunction.tag : ScalarFunction → String
  | dateFormat => "DateFormat"
  | toTimestamp => "ToTimestamp"
  | dateTrunc => "DateTrunc"
  | year => "Year"
  | month => "Month"
  | dayOfMonth => "DayOfMonth"
  | hour => "Hour"
  | minute => "Minute"
  | upper => "Upper"
  | lower => "Lower"
  | concat => "Concat"
  | substring => "Substring"
  | coalesce => "Coalesce"

/-- Tag of an operator. -/
def BinaryOp.tag : BinaryOp → String
  | add => "Add"
  | sub => "Sub"
  | mul => "Mul"
  | div => "Div"

/-- Tag of an aggregate. -/
def AggregateFunction.tag : AggregateFunction → String
  | count => "Count"
  | sum => "Sum"
  | min => "Min"
  | max => "Max"
  | avg => "Avg"
  | approxCountDistinct => "ApproxCountDistinct"
  | first => "First"
  | last => "Last"
  | stddevSamp => "StddevSamp"
  | varSamp => "VarSamp"

/-- Tag of an aggregate mode. -/
def AggregateMode.tag : AggregateMode → String
  | partialOnly => "Partial"
  | final => "Final"
  | complete => "Complete"

namespace Json

/-- An object of one field, whose key is a tag. -/
def tagged (tag : String) (contents : Json) : Json := object [(tag, contents)]

/-- A constant. -/
def ofValue : Value → Json
  | .null => string "Null"
  | .bool b => tagged "Bool" (bool b)
  | .int n => tagged "Int64" (int n)
  | .float x => tagged "Float64" (ofBinary64 x)
  | .string s => tagged "String" (string s)

/-- An identity is its number. -/
def ofExprId (id : ExprId) : Json := int id.val

/-- A column. -/
def ofAttribute (attr : Attribute) : Json :=
  object [("id", ofExprId attr.id), ("name", string attr.name),
    ("data_type", string attr.dataType.tag), ("nullable", bool attr.nullable)]

mutual

/-- An expression. -/
def ofExpr : Expr → Json
  | .column attr => tagged "Column" (ofAttribute attr)
  | .literal value type =>
    tagged "Literal" (object [("value", ofValue value), ("data_type", string type.tag)])
  | .aliased inner name id =>
    tagged "Alias" (object [("expr", ofExpr inner), ("name", string name), ("id", ofExprId id)])
  | .cast inner type =>
    tagged "Cast" (object [("expr", ofExpr inner), ("data_type", string type.tag)])
  | .scalar func args =>
    tagged "ScalarFunction" (object [("func", string func.tag), ("args", array (ofExprs args))])
  | .binary op left right =>
    tagged "BinaryOp"
      (object [("left", ofExpr left), ("op", string op.tag), ("right", ofExpr right)])
  | .aggregate head args =>
    tagged "Aggregate" (object [("id", ofExprId head.id), ("func", string head.func.tag),
      ("args", array (ofExprs args)), ("distinct", bool head.distinct),
      ("mode", string head.mode.tag), ("data_type", string head.dataType.tag)])

/-- The expressions of a list. -/
def ofExprs : List Expr → List Json
  | [] => []
  | e :: es => ofExpr e :: ofExprs es

end

/-- The expressions of a list are written one by one. -/
@[simp] theorem ofExprs_eq_map (es : List Expr) : ofExprs es = es.map ofExpr := by
  induction es with
  | nil => simp [ofExprs]
  | cons e es ih => simp [ofExprs, ih]

end Json

end Rollup
