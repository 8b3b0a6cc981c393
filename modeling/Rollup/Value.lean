import Rollup.Decimal

/-!
# Values

Constants of host expressions, with the equality by which queries compare them and the text in
which they are shown.
-/

namespace Rollup

/-- A constant. -/
inductive Value where
  | null
  | bool (b : Bool)
  | int (n : Int)
  | float (x : Binary64)
  | string (s : String)
  deriving DecidableEq

namespace Value

/-- The value is the null constant. -/
def isNull : Value → Bool
  | null => true
  | _ => false

/-- The integer, if the value is one. -/
def int? : Value → Option Int
  | int n => some n
  | _ => none

/-- The text, if the value is one. -/
def string? : Value → Option String
  | string s => some s
  | _ => none

/-- The number one, as an integer or as a floating-point number. -/
def isOne : Value → Bool
  | int n => n == 1
  | float x => x == Binary64.one
  | _ => false

/-- Equality of constants: numbers of different kinds differ, floating-point numbers are compared
as numbers. -/
def same : Value → Value → Bool
  | null, null => true
  | bool a, bool b => a == b
  | int a, int b => a == b
  | float a, float b => a.same b
  | string a, string b => a == b
  | _, _ => false

/-- Shown numbers never use an exponent, whole ones have no fraction, and ties go up. -/
def shownNumber : Decimal.Layout where
  positional := fun _ => true
  keepsFraction := false
  tie := .up

/-- Characters of a quoted text: only the quote itself is escaped. -/
def quoted (s : String) : String :=
  String.ofList (s.toList.flatMap fun c => if c = '\'' then ['\\', '\''] else [c])

/-- Text in which a constant is shown. -/
def render : Value → String
  | null => "null"
  | bool b => if b then "true" else "false"
  | int n => toString n
  | float x =>
    if x.isNaN then "NaN"
    else if x.isFinite then shownNumber.render x
    else if x.isNegative then "-inf" else "inf"
  | string s => "'" ++ quoted s ++ "'"

/-- Every constant equals itself. -/
@[simp] theorem same_refl (v : Value) : v.same v = true := by
  cases v <;> simp [same]

/-- Equality of constants does not depend on their order. -/
theorem same_comm (v w : Value) : v.same w = w.same v := by
  cases v <;> cases w <;> simp [same, Binary64.same_comm, BEq.comm]

end Value

end Rollup
