import Rollup.Distinct
import Rollup.Expr.Basic

/-!
# Columns and aggregates of an expression

`columns` and `calls` list every occurrence from left to right; `references` and `aggregates` keep
one per identity. `mapColumns` replaces columns and keeps everything around them.
-/

namespace Rollup

namespace Expr

mutual

/-- Occurrences of columns, from left to right, also inside aggregates. -/
def columns : Expr → List Attribute
  | column attr => [attr]
  | literal _ _ => []
  | aliased inner _ _ | cast inner _ => inner.columns
  | scalar _ args | aggregate _ args => columnsOf args
  | binary _ left right => left.columns ++ right.columns

/-- Occurrences of columns in the expressions of a list. -/
def columnsOf : List Expr → List Attribute
  | [] => []
  | e :: es => e.columns ++ columnsOf es

end

mutual

/-- Outermost aggregates, from left to right. -/
def calls : Expr → List AggregateCall
  | column _ | literal _ _ => []
  | aliased inner _ _ | cast inner _ => inner.calls
  | scalar _ args => callsOf args
  | binary _ left right => left.calls ++ right.calls
  | aggregate head args => [{ head with args }]

/-- Outermost aggregates in the expressions of a list. -/
def callsOf : List Expr → List AggregateCall
  | [] => []
  | e :: es => e.calls ++ callsOf es

end

/-- Columns of an expression, the first occurrence of each identity. -/
def references (e : Expr) : List Attribute := distinctBy Attribute.id e.columns

/-- Outermost aggregates of an expression, the first occurrence of each identity. -/
def aggregates (e : Expr) : List AggregateCall :=
  distinctBy (fun call => call.id) e.calls

mutual

/-- Replaces every column for which the function has a value. -/
def mapColumns (f : Attribute → Option Expr) : Expr → Expr
  | column attr => (f attr).getD (column attr)
  | literal value type => literal value type
  | aliased inner name id => aliased (inner.mapColumns f) name id
  | cast inner type => cast (inner.mapColumns f) type
  | scalar func args => scalar func (mapColumnsOf f args)
  | binary op left right => binary op (left.mapColumns f) (right.mapColumns f)
  | aggregate head args => aggregate head (mapColumnsOf f args)

/-- Replaces columns in the expressions of a list. -/
def mapColumnsOf (f : Attribute → Option Expr) : List Expr → List Expr
  | [] => []
  | e :: es => e.mapColumns f :: mapColumnsOf f es

end

/-- The columns of a list are those of its expressions, in order. -/
@[simp] theorem columnsOf_eq_flatMap (es : List Expr) : columnsOf es = es.flatMap columns := by
  induction es with
  | nil => simp [columnsOf]
  | cons e es ih => simp [columnsOf, ih]

/-- The aggregates of a list are those of its expressions, in order. -/
@[simp] theorem callsOf_eq_flatMap (es : List Expr) : callsOf es = es.flatMap calls := by
  induction es with
  | nil => simp [callsOf]
  | cons e es ih => simp [callsOf, ih]

/-- Replacing columns in a list replaces them in each expression. -/
@[simp] theorem mapColumnsOf_eq_map (f : Attribute → Option Expr) (es : List Expr) :
    mapColumnsOf f es = es.map (mapColumns f) := by
  induction es with
  | nil => simp [mapColumnsOf]
  | cons e es ih => simp [mapColumnsOf, ih]

/-- A function without values replaces nothing. -/
@[simp] theorem mapColumns_none (e : Expr) : e.mapColumns (fun _ => none) = e := by
  induction e using induct with
  | step e ih =>
    have args {es : List Expr} (each : ∀ c ∈ es, c.mapColumns (fun _ => none) = c) :
        es.map (mapColumns fun _ => none) = es := by
      simpa using List.map_congr_left each
    cases e with
    | column | literal => simp [mapColumns]
    | aliased | cast | binary => simp_all [mapColumns, children]
    | scalar _ es | aggregate _ es => simpa [mapColumns, children] using args ih

end Expr

/-- Replaces columns in the arguments of an aggregate. -/
def AggregateCall.mapColumns (f : Attribute → Option Expr) (call : AggregateCall) :
    AggregateCall :=
  { call with args := Expr.mapColumnsOf f call.args }

end Rollup
