import Rollup.DataType
import Rollup.Value

/-!
# Expressions

Host expressions are trees over columns and constants. Named expressions carry an identity that
survives every renaming; two references to one column agree in their identity and may differ in
their names. An aggregate is a head, which says what is computed, with its arguments. Expressions
are shown to people, and handed to scripts, as a text in which named ones have their identity after
a number sign.
-/

namespace Rollup

/-- Identity of a named expression. -/
structure ExprId where
  val : Nat
  deriving DecidableEq

/-- A column in the output of a plan. -/
structure Attribute where
  id : ExprId
  name : String
  dataType : DataType
  nullable : Bool := true
  deriving DecidableEq

/-- Aggregates of the host. -/
inductive AggregateFunction where
  | count
  | sum
  | min
  | max
  | avg
  | approxCountDistinct
  | first
  | last
  | stddevSamp
  | varSamp
  deriving DecidableEq

/-- Name of an aggregate in a query. -/
def AggregateFunction.name : AggregateFunction → String
  | count => "count"
  | sum => "sum"
  | min => "min"
  | max => "max"
  | avg => "avg"
  | approxCountDistinct => "approx_count_distinct"
  | first => "first"
  | last => "last"
  | stddevSamp => "stddev_samp"
  | varSamp => "var_samp"

/-- Share of an aggregate that the host asks for: from rows to a buffer, from buffers to the
result, or all of it. -/
inductive AggregateMode where
  | partialOnly
  | final
  | complete
  deriving DecidableEq

/-- What an aggregate computes, apart from its arguments. -/
structure AggregateHead where
  id : ExprId
  func : AggregateFunction
  distinct : Bool := false
  mode : AggregateMode := .complete
  dataType : DataType
  deriving DecidableEq

/-- Functions of one row. -/
inductive ScalarFunction where
  | dateFormat
  | toTimestamp
  | dateTrunc
  | year
  | month
  | dayOfMonth
  | hour
  | minute
  | upper
  | lower
  | concat
  | substring
  | coalesce
  deriving DecidableEq

namespace ScalarFunction

/-- Name of a function in a query. -/
def name : ScalarFunction → String
  | dateFormat => "date_format"
  | toTimestamp => "to_timestamp"
  | dateTrunc => "date_trunc"
  | year => "year"
  | month => "month"
  | dayOfMonth => "dayofmonth"
  | hour => "hour"
  | minute => "minute"
  | upper => "upper"
  | lower => "lower"
  | concat => "concat"
  | substring => "substring"
  | coalesce => "coalesce"

/-- Type of a call whose arguments have the given types. -/
def resultType (arguments : List DataType) : ScalarFunction → DataType
  | dateFormat | upper | lower | concat | substring => .string
  | toTimestamp | dateTrunc => .timestamp
  | year | month | dayOfMonth | hour | minute => .int32
  | coalesce => (arguments.find? fun t => t ≠ .null).getD .null

end ScalarFunction

/-- Arithmetic operators. -/
inductive BinaryOp where
  | add
  | sub
  | mul
  | div
  deriving DecidableEq

namespace BinaryOp

/-- Sign of an operator in a query. -/
def symbol : BinaryOp → String
  | add => "+"
  | sub => "-"
  | mul => "*"
  | div => "/"

/-- Division is fractional; other operators keep the common type of their operands, or the type of
the left one if they have none. -/
def resultType (left right : DataType) : BinaryOp → DataType
  | div => .float64
  | _ => (left.common? right).getD left

end BinaryOp

/-- A host expression. -/
inductive Expr where
  | column (attr : Attribute)
  | literal (value : Value) (dataType : DataType)
  | aliased (inner : Expr) (name : String) (id : ExprId)
  | cast (inner : Expr) (dataType : DataType)
  | scalar (func : ScalarFunction) (args : List Expr)
  | binary (op : BinaryOp) (left right : Expr)
  | aggregate (head : AggregateHead) (args : List Expr)

/-- An aggregate with its arguments. -/
structure AggregateCall extends AggregateHead where
  args : List Expr

namespace AggregateCall

/-- The aggregate as an expression. -/
def toExpr (call : AggregateCall) : Expr := .aggregate call.toAggregateHead call.args

/-- The argument of an aggregate that has exactly one. -/
def singleArg? (call : AggregateCall) : Option Expr :=
  match call.args with
  | [arg] => some arg
  | _ => none

end AggregateCall

namespace Expr

/-- The null constant of a type. -/
def null (dataType : DataType) : Expr := .literal .null dataType

/-- Direct subexpressions, from left to right. -/
def children : Expr → List Expr
  | column _ | literal _ _ => []
  | aliased inner _ _ | cast inner _ => [inner]
  | scalar _ args | aggregate _ args => args
  | binary _ left right => [left, right]

/-- Properties of all expressions follow from their direct subexpressions. -/
@[elab_as_elim] theorem induct {motive : Expr → Prop}
    (step : ∀ e, (∀ c ∈ e.children, motive c) → motive e) (e : Expr) : motive e :=
  step e fun c child =>
    have smaller : sizeOf c < sizeOf e := by
      cases e <;> simp only [children, List.mem_cons, List.not_mem_nil, or_false] at child
      case aliased => subst child; simp +arith
      case cast => subst child; simp +arith
      case scalar => have := List.sizeOf_lt_of_mem child; simp +arith; omega
      case binary => rcases child with rfl | rfl <;> simp +arith
      case aggregate => have := List.sizeOf_lt_of_mem child; simp +arith; omega
    induct step c
termination_by sizeOf e

mutual

/-- Type of an expression. -/
def dataType : Expr → DataType
  | column attr => attr.dataType
  | literal _ type => type
  | aliased inner _ _ => inner.dataType
  | cast _ type => type
  | scalar func args => func.resultType (dataTypes args)
  | binary op left right => op.resultType left.dataType right.dataType
  | aggregate head _ => head.dataType

/-- Types of the expressions of a list. -/
def dataTypes : List Expr → List DataType
  | [] => []
  | e :: es => e.dataType :: dataTypes es

end

/-- The types of a list are those of its expressions. -/
@[simp] theorem dataTypes_eq_map (es : List Expr) : dataTypes es = es.map dataType := by
  induction es with
  | nil => simp [dataTypes]
  | cons e es ih => simp [dataTypes, ih]

/-- Name under which an expression appears in the output of its node. -/
def outputName? : Expr → Option String
  | column attr => some attr.name
  | aliased _ name _ => some name
  | _ => none

/-- Identity under which an expression appears in the output of its node. -/
def outputId? : Expr → Option ExprId
  | column attr => some attr.id
  | aliased _ _ id => some id
  | aggregate head _ => some head.id
  | _ => none

/-- Column that a named expression adds to the output of its node. -/
def attribute? : Expr → Option Attribute
  | column attr => some attr
  | aliased inner name id => some { id, name, dataType := inner.dataType }
  | _ => none

end Expr

/-! ## Text of expressions -/

/-- Text of an identity. -/
def ExprId.render (id : ExprId) : String := "#" ++ toString id.val

namespace Expr

mutual

/-- Text of an expression. -/
def render : Expr → String
  | column attr => attr.name ++ attr.id.render
  | literal value _ => value.render
  | aliased inner name id => inner.render ++ " AS " ++ name ++ id.render
  | cast inner type => "CAST(" ++ inner.render ++ " AS " ++ type.keyword ++ ")"
  | scalar func args => func.name ++ "(" ++ ", ".intercalate (renderAll args) ++ ")"
  | binary op left right =>
    "(" ++ left.render ++ " " ++ op.symbol ++ " " ++ right.render ++ ")"
  | aggregate head args =>
    head.func.name ++ "(" ++ (if head.distinct then "DISTINCT " else "") ++
      ", ".intercalate (renderAll args) ++ ")" ++ head.id.render

/-- Texts of the expressions of a list. -/
def renderAll : List Expr → List String
  | [] => []
  | e :: es => e.render :: renderAll es

end

end Expr

end Rollup
