import Rollup.Toml.Lexeme

/-!
# Bare values of TOML

Booleans, numbers, dates and times are written without quotes. All of them are words over letters,
digits and a few signs, so a bare value is read as a whole word that must have one of their forms.
A date and a time may also be divided by a blank instead of the letter T.
-/

namespace Rollup.Toml

/-- A value without parts. Floating-point numbers, dates and times are kept as they are written. -/
inductive Scalar where
  | text (s : String)
  | integer (n : Int)
  | float (written : String)
  | boolean (b : Bool)
  | datetime (written : String)
  deriving DecidableEq

/-- Characters of bare values. -/
def isWordChar (c : Char) : Bool :=
  c.isAlphanum || c == '_' || c == '+' || c == '-' || c == '.' || c == ':'

/-- Digits of a word in which single underscores may stand between digits. -/
def separatedDigits? (isDigit : Char → Bool) : List Char → Option (List Char)
  | [] => none
  | [c] => if isDigit c then some [c] else none
  | c :: '_' :: rest =>
    if isDigit c then (separatedDigits? isDigit rest).map (c :: ·) else none
  | c :: rest => if isDigit c then (separatedDigits? isDigit rest).map (c :: ·) else none

/-- Value of digits in a base. -/
def digitsValue (base : Nat) (digits : List Char) : Nat :=
  digits.foldl (fun n c => base * n + (hexDigit? c).getD 0) 0

/-- Splits off a sign; true stands for minus. -/
def splitSign : List Char → Bool × List Char
  | '+' :: rest => (false, rest)
  | '-' :: rest => (true, rest)
  | cs => (false, cs)

/-- Digits of a decimal number without needless leading zeros. -/
def decimalDigits? (cs : List Char) : Option (List Char) :=
  (separatedDigits? Char.isDigit cs).filter fun digits =>
    digits.length == 1 || digits.head? != some '0'

/-- The digit belongs to a base. -/
def isDigitOf (base : Nat) (c : Char) : Bool := (hexDigit? c).any fun d => d < base

/-- An integer without its range: decimal with a sign, or in base 16, 8 or 2 without one. -/
def integerValue? : List Char → Option Int
  | '0' :: 'x' :: rest => (separatedDigits? (isDigitOf 16) rest).map fun ds => digitsValue 16 ds
  | '0' :: 'o' :: rest => (separatedDigits? (isDigitOf 8) rest).map fun ds => digitsValue 8 ds
  | '0' :: 'b' :: rest => (separatedDigits? (isDigitOf 2) rest).map fun ds => digitsValue 2 ds
  | cs =>
    let (negative, digits) := splitSign cs
    (decimalDigits? digits).map fun ds =>
      if negative then -(digitsValue 10 ds : Int) else digitsValue 10 ds

/-- An integer of 64 bits. -/
def integer? (cs : List Char) : Option Int :=
  (integerValue? cs).filter fun n => -(Nat.pow 2 63 : Int) ≤ n && n < Nat.pow 2 63

/-- Exponent of a floating-point number, after its mark. -/
def exponent? (cs : List Char) : Option Int :=
  let (negative, digits) := splitSign cs
  (separatedDigits? Char.isDigit digits).map fun ds =>
    if negative then -(digitsValue 10 ds : Int) else digitsValue 10 ds

/-- The number `digits · 10 ^ exponent` is rounded to infinity as a double. -/
def overflows (digits : Nat) (exponent : Int) : Bool :=
  let bound := Nat.pow 2 1024 - Nat.pow 2 970
  let length : Int := (Nat.toDigits 10 digits).length
  if digits = 0 then false
  else if 310 < length + exponent then true
  else if length + exponent < 308 then false
  else bound * Nat.pow 10 (-exponent).toNat ≤ digits * Nat.pow 10 exponent.toNat

/-- Digits before and after the point, and the exponent, of a word without a sign that has a
fraction, an exponent or both. -/
def floatParts? (cs : List Char) : Option (List Char × List Char × Int) :=
  let isMark := fun c => c == 'e' || c == 'E'
  let whole := cs.takeWhile fun c => c.isDigit || c == '_'
  (decimalDigits? whole).bind fun whole =>
    match cs.dropWhile (fun c => c.isDigit || c == '_') with
    | '.' :: rest =>
      let fraction := rest.takeWhile fun c => !isMark c
      (separatedDigits? Char.isDigit fraction).bind fun fraction =>
        match rest.dropWhile (fun c => !isMark c) with
        | [] => some (whole, fraction, 0)
        | _ :: rest => (exponent? rest).map fun e => (whole, fraction, e)
    | c :: rest => if isMark c then (exponent? rest).map fun e => (whole, [], e) else none
    | [] => none

/-- A floating-point number. One that is rounded to positive infinity is refused. -/
def isFloat (cs : List Char) : Bool :=
  let (negative, word) := splitSign cs
  word == ['i', 'n', 'f'] || word == ['n', 'a', 'n'] ||
    (floatParts? word).any fun (whole, fraction, exponent) =>
      negative || !overflows (digitsValue 10 (whole ++ fraction)) (exponent - fraction.length)

/-- Two digits with a value in a range. -/
def twoDigits? (least greatest : Nat) : List Char → Option (Nat × List Char)
  | a :: b :: rest =>
    let value := digitsValue 10 [a, b]
    if a.isDigit && b.isDigit && least ≤ value && value ≤ greatest then some (value, rest) else none
  | _ => none

/-- Drops a given character. -/
def dropChar? (c : Char) : List Char → Option (List Char)
  | d :: rest => if d = c then some rest else none
  | [] => none

/-- Number of days of a month. -/
def daysOfMonth (year month : Nat) : Nat :=
  if month = 2 then
    if year % 4 = 0 ∧ (year % 100 ≠ 0 ∨ year % 400 = 0) then 29 else 28
  else if month = 4 ∨ month = 6 ∨ month = 9 ∨ month = 11 then 30
  else 31

/-- Drops a date with a year of four digits. -/
def dropDate? : List Char → Option (List Char)
  | a :: b :: c :: d :: '-' :: rest => do
    guard ([a, b, c, d].all Char.isDigit)
    let (month, rest) ← twoDigits? 1 12 rest
    let rest ← dropChar? '-' rest
    let (_, rest) ← twoDigits? 1 (daysOfMonth (digitsValue 10 [a, b, c, d]) month) rest
    return rest
  | _ => none

/-- Drops the fraction of a second, if there is one. -/
def dropFraction : List Char → List Char
  | '.' :: c :: rest => if c.isDigit then rest.dropWhile Char.isDigit else '.' :: c :: rest
  | cs => cs

/-- Drops a time of day; a leap second is allowed. -/
def dropTime? (cs : List Char) : Option (List Char) := do
  let (_, rest) ← twoDigits? 0 23 cs
  let rest ← dropChar? ':' rest
  let (_, rest) ← twoDigits? 0 59 rest
  let rest ← dropChar? ':' rest
  let (_, rest) ← twoDigits? 0 60 rest
  return dropFraction rest

/-- An offset from universal time, or nothing. -/
def isOffset : List Char → Bool
  | [] => true
  | c :: rest =>
    if c == 'Z' || c == 'z' then rest.isEmpty
    else (c == '+' || c == '-') && ((do
      let (_, rest) ← twoDigits? 0 23 rest
      let rest ← dropChar? ':' rest
      let (_, rest) ← twoDigits? 0 59 rest
      guard rest.isEmpty) : Option Unit).isSome

/-- A time of day with or without an offset. -/
def isOffsetTime (cs : List Char) : Bool := (dropTime? cs).any isOffset

/-- A date. -/
def isDate (cs : List Char) : Bool := (dropDate? cs).any List.isEmpty

/-- A date and a time divided by a letter, or a time alone. -/
def isDatetime (cs : List Char) : Bool :=
  ((dropDate? cs).any fun rest =>
    match rest with
    | c :: rest => (c == 'T' || c == 't') && isOffsetTime rest
    | [] => false) || (dropTime? cs).any List.isEmpty

/-- The word starts like a time of day. -/
def startsLikeTime : List Char → Bool
  | a :: b :: ':' :: _ => a.isDigit && b.isDigit
  | _ => false

/-- Value of a word that is no date. -/
def word? (cs : List Char) : Option Scalar :=
  if cs == ['t', 'r', 'u', 'e'] then some (.boolean true)
  else if cs == ['f', 'a', 'l', 's', 'e'] then some (.boolean false)
  else if isDatetime cs then some (.datetime (String.ofList cs))
  else if isFloat cs then some (.float (String.ofList cs))
  else (integer? cs).map .integer

/-- A bare value. A time after a date and a blank belongs to the date. -/
def bare? (cs : List Char) : Option (Scalar × List Char) :=
  let word := cs.takeWhile isWordChar
  let rest := cs.dropWhile isWordChar
  if isDate word then
    match rest with
    | ' ' :: after =>
      let time := after.takeWhile isWordChar
      if startsLikeTime time then
        if isOffsetTime time then
          some (.datetime (String.ofList (word ++ ' ' :: time)), after.dropWhile isWordChar)
        else none
      else some (.datetime (String.ofList word), rest)
    | _ => some (.datetime (String.ofList word), rest)
  else (word? word).map fun value => (value, rest)

end Rollup.Toml
