import Rollup.DataType
import Rollup.Failure
import Rollup.Text.Case

/-!
# Relations of the store

A relation of the store has a time column, dimensions to group by and metrics to aggregate. Its
columns are found by name, up to the case of ASCII letters, and of two columns with one name the
first counts. A catalog is what answers the question which relation a name stands for. Registered
relations are found by their names in lower case, and of two relations with one such name the later
counts.
-/

namespace Rollup

/-- Use of a store column. -/
inductive ColumnKind where
  | dimension
  | metric
  deriving DecidableEq

/-- A column of the store. -/
structure Column where
  name : String
  kind : ColumnKind
  dataType : DataType
  /-- Metric that holds a ready sketch of the distinct values of this column. -/
  sketch? : Option String := none
  /-- The metric that holds the number of rows. -/
  isRowCount : Bool := false
  deriving DecidableEq

/-- A relation of the store. -/
structure Relation where
  name : String
  timeColumn : String
  columns : List Column
  /-- Distinct values are counted from sketches, where a column has one. -/
  prefersSketches : Bool := false
  deriving DecidableEq

namespace Relation

/-- First column of a name. -/
def column? (r : Relation) (name : String) : Option Column :=
  r.columns.find? fun c => Text.sameName c.name name

/-- The name is that of the time column. -/
def isTimeColumn (r : Relation) (name : String) : Bool := Text.sameName r.timeColumn name

/-- The column of a name, if it is a dimension other than time. -/
def dimension? (r : Relation) (name : String) : Option Column :=
  (r.column? name).filter fun c => c.kind == .dimension && !r.isTimeColumn c.name

/-- The column of a name, if it is a metric. -/
def metric? (r : Relation) (name : String) : Option Column :=
  (r.column? name).filter fun c => c.kind == .metric

/-- First metric that holds the number of rows. -/
def rowCount? (r : Relation) : Option Column :=
  r.columns.find? fun c => c.kind == .metric && c.isRowCount

/-- A column that is found belongs to the relation. -/
theorem mem_of_column? {r : Relation} {name : String} {c : Column}
    (found : r.column? name = some c) : c ∈ r.columns :=
  List.mem_of_find?_eq_some found

/-- A dimension that is found belongs to the relation, is a dimension and is not time. -/
theorem dimension?_eq_some_iff {r : Relation} {name : String} {c : Column} :
    r.dimension? name = some c ↔
      r.column? name = some c ∧ c.kind = .dimension ∧ r.isTimeColumn c.name = false := by
  simp [dimension?, Option.filter_eq_some_iff]

/-- A metric that is found belongs to the relation and is a metric. -/
theorem metric?_eq_some_iff {r : Relation} {name : String} {c : Column} :
    r.metric? name = some c ↔ r.column? name = some c ∧ c.kind = .metric := by
  simp [metric?, Option.filter_eq_some_iff]

/-- Names that fold to the same characters find the same column. -/
theorem column?_congr (r : Relation) {a b : String} (same : Text.foldAscii a = Text.foldAscii b) :
    r.column? a = r.column? b := by
  simp [column?, Text.sameName, same]

end Relation

/-! ## Catalogs -/

/-- Relations of a store by name. -/
structure Catalog where
  /-- The relation that a name stands for. -/
  relation? : String → Option Relation

namespace Catalog

/-- The catalog without relations. -/
def empty : Catalog := ⟨fun _ => none⟩

/-- Adds a relation under its own name in lower case. -/
def register (c : Catalog) (r : Relation) : Catalog :=
  let key := Text.lowercase r.name
  ⟨fun name => if Text.lowercase name = key then some r else c.relation? name⟩

/-- Registers the relations from first to last. -/
def ofList (relations : List Relation) : Catalog := relations.foldl register empty

/-- The relation of a name, or the failure that there is none. -/
def relation (c : Catalog) (name : String) : Except Failure Relation :=
  match c.relation? name with
  | some r => .ok r
  | none => .error (.relationNotFound name)

/-- A registered relation is found by every name with the same lower case, and other names find
what they found before. -/
theorem relation?_register (c : Catalog) (r : Relation) (name : String) :
    (c.register r).relation? name =
      if Text.lowercase name = Text.lowercase r.name then some r else c.relation? name :=
  rfl

end Catalog

end Rollup
