/-!
# Double-precision numbers in decimal

A double-precision number is its 64-bit word. The library never computes with such numbers: it
compares them, recognises the number one, and writes them in decimal. All of this reads the sign,
the biased exponent and the fraction off the word, so no floating-point operation takes part.

A finite number stands for an interval of reals: those that are rounded to it. Its shortest decimal
is a number of that interval with the fewest significant digits and, of those, the one nearest to
the exact value. The search is exact: for one, two, ... seventeen digits it looks at the two
neighbours of the value on that decimal grid, in integer arithmetic over one denominator. A `Layout`
holds the decisions of one output format: where positional writing ends, whether a whole number
keeps a fraction, and which way ties go.
-/

namespace Rollup

/-! ## Words -/

/-- A double-precision number as its IEEE 754 word. -/
structure Binary64 where
  /-- Sign, eleven exponent bits and fifty-two fraction bits, from the top down. -/
  bits : UInt64
  deriving DecidableEq

namespace Binary64

/-- The sign bit is set. -/
def isNegative (x : Binary64) : Bool := Nat.pow 2 63 ≤ x.bits.toNat

/-- Exponent field, as stored. -/
def biasedExponent (x : Binary64) : Nat := x.bits.toNat / Nat.pow 2 52 % Nat.pow 2 11

/-- Fraction field, without the hidden bit. -/
def fraction (x : Binary64) : Nat := x.bits.toNat % Nat.pow 2 52

/-- Neither an infinity nor a NaN. -/
def isFinite (x : Binary64) : Bool := x.biasedExponent != 2047

/-- Any of the words that stand for no number. -/
def isNaN (x : Binary64) : Bool := x.biasedExponent == 2047 && x.fraction != 0

/-- Zero of either sign. -/
def isZero (x : Binary64) : Bool := x.biasedExponent == 0 && x.fraction == 0

/-- A finite number is its significand times two to its exponent, with the sign of the word. -/
def significand (x : Binary64) : Nat :=
  if x.biasedExponent = 0 then x.fraction else Nat.pow 2 52 + x.fraction

/-- Power of two that scales the significand. -/
def exponent (x : Binary64) : Int :=
  if x.biasedExponent = 0 then -1074 else (x.biasedExponent : Int) - 1075

/-- The number one. -/
def one : Binary64 := ⟨0x3ff0000000000000⟩

/-- Equality of numbers, as opposed to words: the two zeros agree, and so do all NaNs. -/
def same (x y : Binary64) : Bool :=
  x.bits == y.bits || (x.isNaN && y.isNaN) || (x.isZero && y.isZero)

/-- Every word stands for the same number as itself. -/
@[simp] theorem same_refl (x : Binary64) : x.same x = true := by
  simp [same]

/-- Equality of numbers does not depend on the order of the two words. -/
theorem same_comm (x y : Binary64) : x.same y = y.same x := by
  simp [same, Bool.and_comm, BEq.comm (a := x.bits)]

end Binary64

namespace Decimal

/-! ## Shortest decimals -/

/-- The positive number `digits · 10 ^ exponent`. -/
structure Scientific where
  digits : Nat
  exponent : Int
  deriving DecidableEq

/-- Which neighbour is taken when the value lies halfway between two decimals of equal length. -/
inductive Tie where
  | up
  | even

/-- The reals that are rounded to a number, with the number itself, over one denominator. -/
structure Neighbourhood where
  value : Nat
  lower : Nat
  upper : Nat
  denominator : Nat
  /-- Both ends are rounded to the number too. -/
  closed : Bool

namespace Neighbourhood

/-- Neighbourhood of a finite nonzero number. Its ends lie half a unit in the last place away, and
a quarter below a power of two, where the words are twice as dense. -/
def of (x : Binary64) : Neighbourhood :=
  let below := if x.fraction = 0 ∧ 1 < x.biasedExponent then 1 else 2
  let scale := Nat.pow 2 (x.exponent - 2).toNat
  { value := 4 * x.significand * scale
    lower := (4 * x.significand - below) * scale
    upper := (4 * x.significand + 2) * scale
    denominator := Nat.pow 2 (2 - x.exponent).toNat
    closed := x.significand % 2 == 0 }

/-- The value lies below `10 ^ point`, and not below a tenth of it. -/
def point (n : Neighbourhood) : Int :=
  if n.denominator ≤ n.value then
    ((Nat.toDigits 10 (n.value / n.denominator)).length : Int)
  else
    -(((List.range 400).find? fun k => n.denominator ≤ n.value * Nat.pow 10 (k + 1)).getD 0 : Nat)

/-- Neighbour of the value on the grid `10 ^ exponent` that lies in the neighbourhood, the nearer
one if both do. -/
def onGrid? (n : Neighbourhood) (tie : Tie) (exponent : Int) : Option Nat :=
  let scale := Nat.pow 10 (-exponent).toNat
  let unit := n.denominator * Nat.pow 10 exponent.toNat
  let below := n.value * scale / unit
  let rest := n.value * scale % unit
  let reaches (a b : Nat) : Bool := if n.closed then a ≤ b else a < b
  let lowerFits := reaches (n.lower * scale) (below * unit)
  let upperFits := reaches ((below + 1) * unit) (n.upper * scale)
  match lowerFits, upperFits with
  | true, false => some below
  | false, true => some (below + 1)
  | false, false => none
  | true, true =>
    if 2 * rest < unit then some below
    else if unit < 2 * rest then some (below + 1)
    else match tie with
      | .up => some (below + 1)
      | .even => some (if below % 2 = 0 then below else below + 1)

end Neighbourhood

/-- Moves trailing zeros of the digits into the exponent, at most `count` of them. -/
def trimZeros : Nat → Scientific → Scientific
  | 0, s => s
  | count + 1, s =>
    if s.digits % 10 = 0 then trimZeros count ⟨s.digits / 10, s.exponent + 1⟩ else s

/-- Shortest decimal of a finite nonzero number; its sign is left out. -/
def shortest (tie : Tie) (x : Binary64) : Scientific :=
  let n := Neighbourhood.of x
  let found := (List.range' 1 17).findSome? fun (count : Nat) =>
    (n.onGrid? tie (n.point - count)).map fun digits => Scientific.mk digits (n.point - count)
  trimZeros 17 (found.getD ⟨x.significand, x.exponent⟩)

/-! ## Text -/

/-- Decisions of a decimal format. -/
structure Layout where
  /-- Positions of the decimal point, counted from the first digit, that are written without an
  exponent. -/
  positional : Int → Bool
  /-- A whole number is written with a fraction of zero. -/
  keepsFraction : Bool
  /-- Which of two equally near shortest decimals is written. -/
  tie : Tie

namespace Layout

/-- The given number of zeros. -/
def zeros (count : Int) : String := String.ofList (List.replicate count.toNat '0')

/-- A positive decimal in this layout. -/
def digits (layout : Layout) (s : Scientific) : String :=
  let text := Nat.toDigits 10 s.digits
  let point : Int := text.length + s.exponent
  let fraction := if layout.keepsFraction then ".0" else ""
  if layout.positional point then
    if text.length ≤ point then
      String.ofList text ++ zeros (point - text.length) ++ fraction
    else if 0 < point then
      String.ofList (text.take point.toNat) ++ "." ++ String.ofList (text.drop point.toNat)
    else
      "0." ++ zeros (-point) ++ String.ofList text
  else
    let mark := if text.length = 1 then "" else "."
    String.ofList (text.take 1) ++ mark ++ String.ofList (text.drop 1) ++ "e" ++
      toString (point - 1)

/-- A finite number in this layout, with the sign of its word. -/
def render (layout : Layout) (x : Binary64) : String :=
  let sign := if x.isNegative then "-" else ""
  if x.isZero then sign ++ "0" ++ (if layout.keepsFraction then ".0" else "")
  else sign ++ layout.digits (shortest layout.tie x)

end Layout

end Decimal

end Rollup
