import Rollup.Toml.Scalar

/-!
# TOML documents

A document is a table of named nodes. A table is opened by a header, implied by the header of a
table inside it, built up by dotted keys, or written in one piece between braces; how it came to be
decides what may still be added to it. No key is ever given twice.
-/

namespace Rollup.Toml

/-- How a table came to be. -/
inductive Origin where
  /-- Opened by a header of its own. -/
  | header
  /-- Implied by the header of a table inside it. -/
  | implied
  /-- Built up by dotted keys. -/
  | dotted
  /-- Written in one piece. -/
  | inline
  deriving DecidableEq

/-- A value, a table, or a list of tables that are opened one by one. -/
inductive Node where
  | scalar (value : Scalar)
  | array (items : List Node)
  | table (origin : Origin) (entries : List (String × Node))
  | tables (elements : List (List (String × Node)))

/-- The named nodes of a table. -/
abbrev Entries := List (String × Node)

/-- A table with its origin. -/
structure Table where
  origin : Origin
  entries : Entries

namespace Entries

/-- Node of a name. -/
def get? (entries : Entries) (name : String) : Option Node := List.lookup name entries

/-- Sets the node of a name, in place or at the end. -/
def set (name : String) (node : Node) : Entries → Entries
  | [] => [(name, node)]
  | (other, old) :: rest =>
    if other = name then (name, node) :: rest else (other, old) :: set name node rest

/-- Adds a node under a new name. -/
def add? (entries : Entries) (name : String) (node : Node) : Option Entries :=
  if (get? entries name).isSome then none else some (entries ++ [(name, node)])

end Entries

namespace Table

/-- The table inside a node, and how a changed table goes back into it. Values have none inside,
dotted keys cannot enter a table with a header, and a list of tables is entered at its end. -/
def enter? (way : Origin) : Node → Option (Table × (Table → Node))
  | .scalar _ | .array _ => none
  | .table origin entries =>
    if origin = .inline ∨ (way = .dotted ∧ origin = .header) then none
    else some (⟨origin, entries⟩, fun t => .table t.origin t.entries)
  | .tables elements =>
    elements.getLast?.map fun last =>
      (⟨.header, last⟩, fun t => .tables (elements.dropLast ++ [t.entries]))

/-- Changes the table to which a path leads. Tables that are missing on the way are made; `way`
says by what. -/
def edit? (way : Origin) (change : Table → Option Table) : List String → Table → Option Table
  | [], t => change t
  | name :: path, t =>
    match Entries.get? t.entries name with
    | none => (edit? way change path ⟨way, []⟩).map fun inner =>
      { t with entries := t.entries.set name (.table inner.origin inner.entries) }
    | some node => (enter? way node).bind fun (inner, restore) =>
      (edit? way change path inner).map fun inner =>
        { t with entries := t.entries.set name (restore inner) }

/-- Adds a node under a key. What a dotted key adds to must be built up by dotted keys. -/
def add? (t : Table) (key : List String) (node : Node) : Option Table :=
  key.getLast?.bind fun name =>
    edit? .dotted (fun inner =>
      if key.length ≠ 1 ∧ inner.origin ≠ .dotted then none
      else (inner.entries.add? name node).map fun entries => { inner with entries }) key.dropLast t

/-- Opens the table of a header. Only an implied table may be opened later. -/
def openTable? (root : Table) (header : List String) : Option Table :=
  header.getLast?.bind fun name =>
    edit? .implied (fun parent =>
      match Entries.get? parent.entries name with
      | none => some { parent with entries := parent.entries ++ [(name, .table .header [])] }
      | some (.table .implied entries) =>
        some { parent with entries := parent.entries.set name (.table .header entries) }
      | some _ => none) header.dropLast root

/-- Opens one more table in the list of a header. -/
def openElement? (root : Table) (header : List String) : Option Table :=
  header.getLast?.bind fun name =>
    edit? .implied (fun parent =>
      match Entries.get? parent.entries name with
      | none => some { parent with entries := parent.entries ++ [(name, .tables [[]])] }
      | some (.tables elements) =>
        some { parent with entries := parent.entries.set name (.tables (elements ++ [[]])) }
      | some _ => none) header.dropLast root

/-- Adds a node to the table of the last header. -/
def addUnder? (root : Table) (header key : List String) (node : Node) : Option Table :=
  edit? .implied (fun t => t.add? key node) header root

end Table

mutual

/-- A value, of at most `depth` levels; `fuel` bounds the steps. -/
def value? (fuel depth : Nat) (cs : List Char) : Option (Node × List Char) :=
  match fuel with
  | 0 => none
  | fuel + 1 =>
    match cs, depth with
    | '[' :: rest, depth + 1 =>
      (items? fuel depth rest).map fun (items, rest) => (.array items, rest)
    | '\x7b' :: rest, depth + 1 =>
      match skipBlanks rest with
      | '\x7d' :: rest => some (.table .inline [], rest)
      | rest => (pairs? fuel depth ⟨.inline, []⟩ rest).map fun (table, rest) =>
        (.table .inline table.entries, rest)
    | '[' :: _, 0 | '\x7b' :: _, 0 => none
    | '"' :: _, _ | '\'' :: _, _ => (text? cs).map fun (s, rest) => (.scalar (.text s), rest)
    | _, _ => (bare? cs).map fun (value, rest) => (.scalar value, rest)

/-- Values up to the closing bracket; a comma may follow the last one. -/
def items? (fuel depth : Nat) (cs : List Char) : Option (List Node × List Char) :=
  match fuel with
  | 0 => none
  | fuel + 1 =>
    match skipSpace cs with
    | ']' :: rest => some ([], rest)
    | cs =>
      (value? fuel depth cs).bind fun (item, rest) =>
        match skipSpace rest with
        | ',' :: rest => (items? fuel depth rest).map fun (items, rest) => (item :: items, rest)
        | ']' :: rest => some ([item], rest)
        | _ => none

/-- Keys with values up to the closing brace, added to a table; no comma may follow the last
one. -/
def pairs? (fuel depth : Nat) (t : Table) (cs : List Char) : Option (Table × List Char) :=
  match fuel with
  | 0 => none
  | fuel + 1 =>
    (key? cs).bind fun (key, rest) =>
      match rest with
      | '=' :: rest =>
        (value? fuel depth (skipBlanks rest)).bind fun (node, rest) =>
          (t.add? key node).bind fun t =>
            match skipBlanks rest with
            | ',' :: rest => pairs? fuel depth t rest
            | '\x7d' :: rest => some (t, rest)
            | _ => none
      | _ => none

end

/-- A header with the given closing brackets, to the end of its line. -/
def header? (closing : List Char) (cs : List Char) : Option (List String × List Char) :=
  (key? cs).bind fun (key, rest) =>
    if closing.isPrefixOf rest then
      (lineEnd? (rest.drop closing.length)).map fun rest => (key, rest)
    else none

/-- A key with its value, to the end of the line. -/
def pair? (cs : List Char) : Option (List String × Node × List Char) :=
  (key? cs).bind fun (key, rest) =>
    match rest with
    | '=' :: rest =>
      (value? (2 * rest.length + 2) depthLimit (skipBlanks rest)).bind fun (node, rest) =>
        (lineEnd? rest).map fun rest => (key, node, rest)
    | _ => none

/-- Reads the lines of a document into the table so far, under the last header; `fuel` bounds their
number. -/
def lines? : Nat → Table → List String → List Char → Option Table
  | 0, _, _, _ => none
  | fuel + 1, root, header, cs =>
    match skipBlanks cs with
    | [] => some root
    | '[' :: '[' :: rest =>
      (header? [']', ']'] rest).bind fun (header, rest) =>
        (root.openElement? header).bind fun root => lines? fuel root header rest
    | '[' :: rest =>
      (header? [']'] rest).bind fun (header, rest) =>
        (root.openTable? header).bind fun root => lines? fuel root header rest
    | '#' :: rest => (lineEnd? ('#' :: rest)).bind (lines? fuel root header)
    | '\n' :: rest => lines? fuel root header rest
    | '\r' :: '\n' :: rest => lines? fuel root header rest
    | cs =>
      (pair? cs).bind fun (key, node, rest) =>
        (root.addUnder? header key node).bind fun root => lines? fuel root header rest

/-- Reads a document; one byte order mark may come first. -/
def read? (s : String) : Option Entries :=
  let cs := match s.toList with
    | c :: rest => if c.toNat = 0xfeff then rest else c :: rest
    | [] => []
  (lines? (cs.length + 1) ⟨.header, []⟩ [] cs).map Table.entries

end Rollup.Toml
