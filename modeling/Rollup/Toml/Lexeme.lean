/-!
# Lexemes of TOML

Blanks, comments, line ends, keys and the four kinds of text, read from a list of characters. Every
reader gives what it read with the characters after it, or nothing if the input does not start with
such a lexeme.
-/

namespace Rollup.Toml

/-- Blanks inside a line. -/
def isBlank (c : Char) : Bool := c == ' ' || c == '\t'

/-- Characters of comments and of literal texts: tabs and everything that is no control
character. -/
def isPrintable (c : Char) : Bool := c == '\t' || (32 ≤ c.toNat && c.toNat != 127)

/-- Characters of keys without quotes. -/
def isBareKeyChar (c : Char) : Bool := c.isAlphanum || c == '-' || c == '_'

/-- Drops blanks. -/
def skipBlanks (cs : List Char) : List Char := cs.dropWhile isBlank

/-- Drops a line end, if there is one. -/
def newline? : List Char → Option (List Char)
  | '\n' :: rest => some rest
  | '\r' :: '\n' :: rest => some rest
  | _ => none

/-- Drops blanks and a comment up to the end of the line, without the line end. -/
def skipComment (cs : List Char) : List Char :=
  match skipBlanks cs with
  | '#' :: rest => rest.dropWhile isPrintable
  | cs => cs

/-- Drops the rest of a line on which nothing but a comment may follow. -/
def lineEnd? (cs : List Char) : Option (List Char) :=
  match skipComment cs with
  | [] => some []
  | cs => newline? cs

/-- Drops blanks, comments and line ends; each step drops at least one character, and `fuel` bounds
their number. -/
def skipSpaceWithin : Nat → List Char → List Char
  | 0, cs => cs
  | fuel + 1, cs =>
    match newline? (skipComment cs) with
    | some rest => skipSpaceWithin fuel rest
    | none => skipBlanks cs

/-- Drops blanks, comments and line ends. -/
def skipSpace (cs : List Char) : List Char := skipSpaceWithin cs.length cs

/-- Value of a hexadecimal digit. -/
def hexDigit? (c : Char) : Option Nat :=
  if c.isDigit then some (c.toNat - '0'.toNat)
  else if 'a' ≤ c && c ≤ 'f' then some (c.toNat - 'a'.toNat + 10)
  else if 'A' ≤ c && c ≤ 'F' then some (c.toNat - 'A'.toNat + 10)
  else none

/-- The character that hexadecimal digits stand for. -/
def codePoint? (digits : List Char) : Option Char :=
  (digits.mapM hexDigit?).bind fun values =>
    let code := values.foldl (fun n d => 16 * n + d) 0
    if code.isValidChar then some (Char.ofNat code) else none

/-- The character that a letter stands for after a backslash. -/
def simpleEscape? : Char → Option Char
  | 'b' => some (Char.ofNat 8)
  | 't' => some '\t'
  | 'n' => some '\n'
  | 'f' => some (Char.ofNat 12)
  | 'r' => some '\r'
  | '"' => some '"'
  | '\\' => some '\\'
  | _ => none

/-- Puts a character in front of what was read. -/
def consChar (c : Char) (read : List Char × List Char) : List Char × List Char :=
  (c :: read.1, read.2)

/-- Rest of a text in double quotes, on one line. -/
def basicRest? : List Char → Option (List Char × List Char)
  | [] => none
  | '"' :: rest => some ([], rest)
  | '\\' :: 'u' :: a :: b :: c :: d :: rest =>
    (codePoint? [a, b, c, d]).bind fun x => (basicRest? rest).map (consChar x)
  | '\\' :: 'U' :: a :: b :: c :: d :: e :: f :: g :: h :: rest =>
    (codePoint? [a, b, c, d, e, f, g, h]).bind fun x => (basicRest? rest).map (consChar x)
  | '\\' :: c :: rest => (simpleEscape? c).bind fun x => (basicRest? rest).map (consChar x)
  | c :: rest =>
    if isPrintable c && c != '\\' then (basicRest? rest).map (consChar c) else none

/-- A backslash before these characters joins the line with the next one. -/
def joinsLines (cs : List Char) : Bool := (newline? (skipBlanks cs)).isSome

/-- Up to two more quotes right after the three that close a text over several lines belong to the
text. -/
def closingQuotes (quote : Char) : List Char → List Char × List Char
  | a :: b :: rest =>
    if a == quote && b == quote then ([quote, quote], rest)
    else if a == quote then ([quote], b :: rest)
    else ([], a :: b :: rest)
  | [a] => if a == quote then ([quote], []) else ([], [a])
  | [] => ([], [])

/-- Rest of a text in three double quotes. While `joining`, blanks and line ends are dropped. -/
def multiBasicRest? (joining : Bool) : List Char → Option (List Char × List Char)
  | [] => none
  | '"' :: '"' :: '"' :: rest => some (closingQuotes '"' rest)
  | '\r' :: '\n' :: rest =>
    if joining then multiBasicRest? true rest
    else (multiBasicRest? false rest).map (consChar '\n')
  | '\\' :: 'u' :: a :: b :: c :: d :: rest =>
    (codePoint? [a, b, c, d]).bind fun x => (multiBasicRest? false rest).map (consChar x)
  | '\\' :: 'U' :: a :: b :: c :: d :: e :: f :: g :: h :: rest =>
    (codePoint? [a, b, c, d, e, f, g, h]).bind fun x =>
      (multiBasicRest? false rest).map (consChar x)
  | '\\' :: c :: rest =>
    if joinsLines (c :: rest) then multiBasicRest? true (c :: rest)
    else (simpleEscape? c).bind fun x => (multiBasicRest? false rest).map (consChar x)
  | c :: rest =>
    if joining && (isBlank c || c == '\n') then multiBasicRest? true rest
    else if c == '\n' || (isPrintable c && c != '\\') then
      (multiBasicRest? false rest).map (consChar c)
    else none

/-- Rest of a text in single quotes, on one line. -/
def literalRest? : List Char → Option (List Char × List Char)
  | [] => none
  | '\'' :: rest => some ([], rest)
  | c :: rest => if isPrintable c then (literalRest? rest).map (consChar c) else none

/-- Rest of a text in three single quotes. -/
def multiLiteralRest? : List Char → Option (List Char × List Char)
  | [] => none
  | '\'' :: '\'' :: '\'' :: rest => some (closingQuotes '\'' rest)
  | '\r' :: '\n' :: rest => (multiLiteralRest? rest).map (consChar '\n')
  | c :: rest =>
    if c == '\n' || isPrintable c then (multiLiteralRest? rest).map (consChar c) else none

/-- Drops the line end right after the quotes that open a text over several lines. -/
def skipFirstNewline (cs : List Char) : List Char := (newline? cs).getD cs

/-- A text of any of the four kinds. -/
def text? : List Char → Option (String × List Char)
  | '"' :: '"' :: '"' :: rest =>
    (multiBasicRest? false (skipFirstNewline rest)).map fun r => (String.ofList r.1, r.2)
  | '"' :: rest => (basicRest? rest).map fun r => (String.ofList r.1, r.2)
  | '\'' :: '\'' :: '\'' :: rest =>
    (multiLiteralRest? (skipFirstNewline rest)).map fun r => (String.ofList r.1, r.2)
  | '\'' :: rest => (literalRest? rest).map fun r => (String.ofList r.1, r.2)
  | _ => none

/-- One part of a key: a text on one line, or letters, digits, dashes and underscores. -/
def keyPart? : List Char → Option (String × List Char)
  | '"' :: rest => (basicRest? rest).map fun r => (String.ofList r.1, r.2)
  | '\'' :: rest => (literalRest? rest).map fun r => (String.ofList r.1, r.2)
  | cs =>
    match cs.takeWhile isBareKeyChar with
    | [] => none
    | name => some (String.ofList name, cs.dropWhile isBareKeyChar)

/-- Parts of a key divided by dots, with blanks around each; `fuel` bounds their number. -/
def keyPartsWithin? : Nat → List Char → Option (List String × List Char)
  | 0, _ => none
  | fuel + 1, cs =>
    (keyPart? (skipBlanks cs)).bind fun (part, rest) =>
      match skipBlanks rest with
      | '.' :: rest => (keyPartsWithin? fuel rest).map fun (parts, rest) => (part :: parts, rest)
      | rest => some ([part], rest)

/-- Greatest number of levels to which keys and values may nest. -/
def depthLimit : Nat := 79

/-- A key: at least one part, and no more than may nest. -/
def key? (cs : List Char) : Option (List String × List Char) := keyPartsWithin? depthLimit cs

end Rollup.Toml
