import Rollup.Expr.Basic

/-!
# Aliases and casts

Names and conversions around an expression, and what lies under them.
-/

namespace Rollup.Expr

/-- The expression under all its aliases. -/
def stripAlias : Expr → Expr
  | aliased inner _ _ => inner.stripAlias
  | e => e

/-- The expression under all its casts. -/
def stripCasts : Expr → Expr
  | cast inner _ => inner.stripCasts
  | e => e

/-- A cast to this type is one of a number, or of the null type, to a numeric type. -/
def isNumericCast (inner : Expr) (target : DataType) : Bool :=
  target.isNumeric && (inner.dataType.isNumeric || inner.dataType == .null)

/-- The expression under all its casts between numeric types. -/
def stripNumericCasts : Expr → Expr
  | cast inner target =>
    if inner.isNumericCast target then inner.stripNumericCasts else cast inner target
  | e => e

/-- The null constant, possibly cast. -/
def isNullLiteral (e : Expr) : Bool :=
  match e.stripCasts with
  | literal .null _ => true
  | _ => false

/-- The text of a text constant, possibly cast. -/
def stringLiteral? (e : Expr) : Option String :=
  match e.stripCasts with
  | literal value _ => value.string?
  | _ => none

/-- The column, if the expression is one. -/
def column? : Expr → Option Attribute
  | column attr => some attr
  | _ => none

/-- An expression is a given column exactly if it has the form of that column. -/
@[simp] theorem column?_eq_some_iff {e : Expr} {attr : Attribute} :
    e.column? = some attr ↔ e = column attr := by
  cases e <;> simp [column?]

/-- No alias is left under all aliases. -/
@[simp] theorem stripAlias_stripAlias (e : Expr) : e.stripAlias.stripAlias = e.stripAlias := by
  fun_induction stripAlias e with
  | case1 inner _ _ ih => exact ih
  | case2 e other => rw [stripAlias.eq_2 e other]

/-- No cast is left under all casts. -/
@[simp] theorem stripCasts_stripCasts (e : Expr) : e.stripCasts.stripCasts = e.stripCasts := by
  fun_induction stripCasts e with
  | case1 inner _ ih => exact ih
  | case2 e other => rw [stripCasts.eq_2 e other]

/-- An alias has the type of what it names. -/
@[simp] theorem dataType_stripAlias (e : Expr) : e.stripAlias.dataType = e.dataType := by
  fun_induction stripAlias e with
  | case1 inner _ _ ih => simpa [dataType] using ih
  | case2 e other => rfl

end Rollup.Expr
