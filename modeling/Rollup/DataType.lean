/-!
# Data types

`DataType` is the declared type of a host expression and `StoreType` the type in which the store
returns a result column. Numeric types are ordered by width, and two types have a common type when
both widen to it: equal types, a type and the null type, or two numeric types.
-/

namespace Rollup

/-- Declared type of a host expression. -/
inductive DataType where
  | null
  | bool
  | int8
  | int16
  | int32
  | int64
  | float32
  | float64
  | string
  | date
  | timestamp
  deriving DecidableEq

namespace DataType

/-- Position of a numeric type in the order of widths; other types have no position. -/
def rank? : DataType → Option Nat
  | int8 => some 0
  | int16 => some 1
  | int32 => some 2
  | int64 => some 3
  | float32 => some 4
  | float64 => some 5
  | _ => none

/-- Integers and floating-point numbers are numeric. -/
def isNumeric (t : DataType) : Bool := t.rank?.isSome

/-- The four signed integer widths. -/
def isIntegral : DataType → Bool
  | int8 | int16 | int32 | int64 => true
  | _ => false

/-- The two floating-point widths. -/
def isFractional : DataType → Bool
  | float32 | float64 => true
  | _ => false

/-- Narrowest type to which both types widen without loss of range, if there is one. -/
def common? (a b : DataType) : Option DataType :=
  if a = b then some a
  else match a, b with
    | null, t | t, null => some t
    | _, _ => match a.rank?, b.rank? with
      | some i, some j => some (if j ≤ i then a else b)
      | _, _ => none

/-- Keyword by which queries name the type. -/
def keyword : DataType → String
  | null => "NULL"
  | bool => "BOOLEAN"
  | int8 => "TINYINT"
  | int16 => "SMALLINT"
  | int32 => "INT"
  | int64 => "BIGINT"
  | float32 => "FLOAT"
  | float64 => "DOUBLE"
  | string => "STRING"
  | date => "DATE"
  | timestamp => "TIMESTAMP"

/-- A numeric type is integral or fractional, and no other type is either. -/
theorem isNumeric_eq (t : DataType) : t.isNumeric = (t.isIntegral || t.isFractional) := by
  cases t <;> rfl

/-- A type widens to itself. -/
@[simp] theorem common?_self (t : DataType) : t.common? t = some t := by
  simp [common?]

/-- The common type does not depend on the order of the two types. -/
theorem common?_comm (a b : DataType) : a.common? b = b.common? a := by
  cases a <;> cases b <;> rfl

/-- The null type widens to every type. -/
@[simp] theorem null_common? (t : DataType) : null.common? t = some t := by
  cases t <;> rfl

end DataType

/-- Type in which the store returns a result column. -/
inductive StoreType where
  | long
  | double
  | string
  | timestamp
  deriving DecidableEq

namespace StoreType

/-- Store type that holds the values of a host type. -/
def of : DataType → StoreType
  | .int8 | .int16 | .int32 | .int64 => long
  | .float32 | .float64 => double
  | .date | .timestamp => timestamp
  | .null | .bool | .string => string

/-- Name of the type in a store query. -/
def name : StoreType → String
  | long => "long"
  | double => "double"
  | string => "string"
  | timestamp => "timestamp"

/-- Integral columns come back as longs, and only they do. -/
theorem of_eq_long_iff (t : DataType) : of t = long ↔ t.isIntegral = true := by
  cases t <;> decide

/-- Fractional columns come back as doubles, and only they do. -/
theorem of_eq_double_iff (t : DataType) : of t = double ↔ t.isFractional = true := by
  cases t <;> decide

end StoreType

end Rollup
