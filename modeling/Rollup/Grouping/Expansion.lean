import Rollup.Expr.Columns
import Rollup.Expr.Peel
import Rollup.Plan

/-!
# Expansions

An aggregate over grouping sets reads an expansion, directly or through one projection. Each row of
the expansion stands for one grouping set; `ExpansionRow.resolve` turns an expression over the
columns of the expansion, or of the projection, into one over what the expansion reads.
-/

namespace Rollup

/-- An expansion below an aggregate, with the projection between them if there is one. -/
structure Expansion where
  project? : Option (List Expr)
  projections : List (List Expr)
  output : List Attribute
  input : Plan

/-- The expansion that an aggregate over this plan reads. -/
def Expansion.ofPlan? : Plan → Option Expansion
  | .expand input projections output => some { project? := none, projections, output, input }
  | .project (.expand input projections output) expressions =>
    some { project? := some expressions, projections, output, input }
  | _ => none

/-- One row of an expansion, seen through the projection above it. -/
structure ExpansionRow where
  project? : Option (List Expr)
  output : List Attribute
  row : List Expr

/-- The rows of an expansion in order. -/
def Expansion.rows (x : Expansion) : List ExpansionRow :=
  x.projections.map fun row => { project? := x.project?, output := x.output, row }

namespace ExpansionRow

/-- Place of a column of the expansion. -/
def index? (x : ExpansionRow) (id : ExprId) : Option Nat := x.output.findIdx? fun a => a.id == id

/-- Value of a column of the expansion in this row. -/
def value? (x : ExpansionRow) (attr : Attribute) : Option Expr :=
  (x.index? attr.id).bind fun place => x.row[place]?

/-- Expression of the projection that puts out a column. -/
def projected? (x : ExpansionRow) (attr : Attribute) : Option Expr :=
  x.project?.bind fun expressions => expressions.find? fun e => e.outputId? = some attr.id

/-- Place in the row of the column that an output column stands for. A computed column stands for
none. -/
def position? (x : ExpansionRow) (attr : Attribute) : Option Nat :=
  match x.projected? attr with
  | some e => e.stripAlias.column?.bind fun inner => x.index? inner.id
  | none => x.index? attr.id

/-- What a column stands for in this row, over the input of the expansion. -/
def resolveColumn? (x : ExpansionRow) (attr : Attribute) : Option Expr :=
  match x.projected? attr with
  | some e => some (e.stripAlias.mapColumns x.value?)
  | none => x.value? attr

/-- What an expression stands for in this row, over the input of the expansion. -/
def resolve (x : ExpansionRow) (e : Expr) : Expr := e.mapColumns x.resolveColumn?

end ExpansionRow

end Rollup
