import Rollup.Decimal

/-!
# JSON

JSON trees whose objects keep their fields in written order, and their compact text.
-/

namespace Rollup

/-- A JSON tree. -/
inductive Json where
  | null
  | bool (b : Bool)
  | int (n : Int)
  | number (x : Binary64)
  | string (s : String)
  | array (items : List Json)
  | object (fields : List (String × Json))

namespace Json

/-- Infinities and NaNs have no number in JSON and are written as null. -/
def ofBinary64 (x : Binary64) : Json := if x.isFinite then number x else null

/-- An array of texts. -/
def ofStrings (items : List String) : Json := array (items.map string)

/-- Numbers keep a fraction of zero, use an exponent below `0.00001` and from `10 ^ 16` on, and a
tie goes to the even neighbour. -/
def numberLayout : Decimal.Layout where
  positional := fun point => -5 < point && point ≤ 16
  keepsFraction := true
  tie := .even

/-- Characters by which a character is written inside a text. -/
def escape (c : Char) : List Char :=
  if c = '"' then ['\\', '"']
  else if c = '\\' then ['\\', '\\']
  else if c = '\n' then ['\\', 'n']
  else if c = '\r' then ['\\', 'r']
  else if c = '\t' then ['\\', 't']
  else if c.toNat = 8 then ['\\', 'b']
  else if c.toNat = 12 then ['\\', 'f']
  else if c.toNat < 32 then
    ['\\', 'u', '0', '0', Nat.digitChar (c.toNat / 16), Nat.digitChar (c.toNat % 16)]
  else [c]

/-- A text between its quotes. -/
def quote (s : String) : String := "\"" ++ String.ofList (s.toList.flatMap escape) ++ "\""

mutual

/-- Compact text of a tree. -/
def render : Json → String
  | null => "null"
  | bool b => if b then "true" else "false"
  | int n => toString n
  | number x => numberLayout.render x
  | string s => quote s
  | array items => "[" ++ ",".intercalate (renderItems items) ++ "]"
  | object fields => "\x7b" ++ ",".intercalate (renderFields fields) ++ "\x7d"

/-- Texts of the items of an array. -/
def renderItems : List Json → List String
  | [] => []
  | item :: items => item.render :: renderItems items

/-- Texts of the fields of an object. -/
def renderFields : List (String × Json) → List String
  | [] => []
  | (key, value) :: fields => (quote key ++ ":" ++ value.render) :: renderFields fields

end

end Json

end Rollup
