import Rollup.Expr.Basic
import Rollup.Store
import Rollup.Table

/-!
# Store queries

Dimensions say by what the store groups, aggregations what it computes of each group, and
post-aggregations what it computes of the results. A result column says which host expression a
named result stands for. A `Query` is the native query for one grouping set while it is put
together. It is a value: every step returns a longer query and leaves the old one as it was, so that
two attempts from one query never see each other.
-/

namespace Rollup

/-! ## Parts of a query -/

/-- A function in the script language of the store. -/
structure ScriptFunction where
  /-- Store columns bound to the inputs, in call order. -/
  params : List String
  body : String
  deriving DecidableEq

namespace ScriptFunction

/-- The column that the function reads, if it reads exactly one. -/
def soleParam? (f : ScriptFunction) : Option String :=
  match f.params with
  | [param] => some param
  | _ => none

end ScriptFunction

/-- How a dimension is derived from the column that it reads. -/
inductive Extraction where
  /-- A point in time, formatted. -/
  | timeFormat (format timezone : String)
  /-- Text read as a point in time in one format and written in another. -/
  | timeParse (inputFormat outputFormat timezone : String)
  /-- The result of a script. -/
  | script (function : ScriptFunction)
  deriving DecidableEq

/-- One column by which the store groups. -/
structure Dimension where
  /-- Store column that is read. -/
  source : String
  outputName : String
  /-- Derivation of the value; without one, the value of the column itself. -/
  extraction? : Option Extraction := none
  deriving DecidableEq

/-- Aggregators of the store over one numeric column, and its row counter. -/
inductive NativeFunction where
  | longSum
  | doubleSum
  | longMin
  | doubleMin
  | longMax
  | doubleMax
  | count
  deriving DecidableEq

namespace NativeFunction

/-- Name of an aggregator in a store query. -/
def name : NativeFunction → String
  | longSum => "longSum"
  | doubleSum => "doubleSum"
  | longMin => "longMin"
  | doubleMin => "doubleMin"
  | longMax => "longMax"
  | doubleMax => "doubleMax"
  | count => "count"

/-- All aggregators. -/
def all : List NativeFunction :=
  [longSum, doubleSum, longMin, doubleMin, longMax, doubleMax, count]

/-- Aggregator of a name. -/
def ofName? (name : String) : Option NativeFunction := all.find? fun f => f.name = name

/-- Type of the results of an aggregator. -/
def storeType : NativeFunction → StoreType
  | longSum | longMin | longMax | count => .long
  | doubleSum | doubleMin | doubleMax => .double

/-- Every aggregator is found by its name. -/
theorem ofName?_name (f : NativeFunction) : ofName? f.name = some f := by
  cases f <;> decide

end NativeFunction

/-- One value that the store computes of each group. -/
inductive Aggregation where
  | native (function : NativeFunction) (name : String) (field? : Option String)
  /-- Approximate number of distinct values of dimensions. -/
  | cardinality (name : String) (fields : List String)
  /-- Approximate number of distinct values from a ready sketch. -/
  | hyperUnique (name : String) (field : String)
  | script (name : String) (function : ScriptFunction)
  deriving DecidableEq

/-- Name of the result. -/
def Aggregation.name : Aggregation → String
  | native _ name _ | cardinality name _ | hyperUnique name _ | script name _ => name

/-- Arithmetic over aggregated results, which it refers to by name. -/
structure PostAggregation where
  name : String
  op : BinaryOp
  fields : List String
  deriving DecidableEq

/-- The quotient of two results. -/
def PostAggregation.division (name numerator denominator : String) : PostAggregation :=
  { name, op := .div, fields := [numerator, denominator] }

/-- Which host expression a named result stands for, and its types on both sides. -/
structure ResultColumn where
  name : String
  expr : Expr
  storeType : StoreType
  hostType : DataType

/-! ## Queries -/

/-- A store query over one relation. -/
structure Query where
  relation : Relation
  dimensions : List Dimension := []
  aggregations : List Aggregation := []
  postAggregations : List PostAggregation := []
  /-- Result columns by name. -/
  results : Table String ResultColumn := .empty
  /-- Number of the next generated name to try. -/
  nextAlias : Nat := 0

namespace Query

/-- Result column of a name. -/
def result? (q : Query) (name : String) : Option ResultColumn := q.results.get? name

/-- First result column that stands for the named host expression of this identity. -/
def resultFor? (q : Query) (id : ExprId) : Option ResultColumn :=
  q.results.values.find? fun result => result.expr.outputId? = some id

/-- First aggregation of a name. -/
def aggregation? (q : Query) (name : String) : Option Aggregation :=
  q.aggregations.find? fun a => a.name = name

/-- Names of everything that the query computes: dimensions, aggregations, post-aggregations. -/
def resultNames (q : Query) : List String :=
  q.dimensions.map Dimension.outputName ++ q.aggregations.map Aggregation.name ++
    q.postAggregations.map PostAggregation.name

/-- Names that a new result must not have. -/
def takenNames (q : Query) : List String := q.results.keys ++ q.resultNames

/-- A new result must not have this name. -/
def isNameTaken (q : Query) (name : String) : Bool := q.takenNames.contains name

/-- Groups by one more dimension. -/
def addDimension (q : Query) (d : Dimension) : Query :=
  { q with dimensions := q.dimensions ++ [d] }

/-- Computes one more aggregation. -/
def addAggregation (q : Query) (a : Aggregation) : Query :=
  { q with aggregations := q.aggregations ++ [a] }

/-- Computes one more post-aggregation. -/
def addPostAggregation (q : Query) (p : PostAggregation) : Query :=
  { q with postAggregations := q.postAggregations ++ [p] }

/-- Records what a named result stands for. -/
def addResult (q : Query) (r : ResultColumn) : Query :=
  { q with results := q.results.insert r.name r }

end Query

end Rollup
