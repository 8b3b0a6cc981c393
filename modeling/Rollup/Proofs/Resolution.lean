import Rollup.Proofs.Columns
import Rollup.Proofs.Groups

/-!
# Expressions over the input of an expansion

Resolving an expression in a row of an expansion replaces its columns twice: by expressions of the
projection above the expansion, if there is one, and the columns of these by cells of the row. Where
every reference designates something, only columns of the row are left, and where every reference
has the type of what it designates, the expression keeps its type. The type of an expression depends
on those of its deepest columns, so one column of another type is enough to change it.
-/

namespace Rollup

/-- Columns that are replaced by expressions of their own type do not change the type around
them. -/
theorem Expr.dataType_mapColumns {f : Attribute → Option Expr} {e : Expr}
    (typed : ∀ attr ∈ e.columns, ((column attr).mapColumns f).dataType = attr.dataType) :
    (e.mapColumns f).dataType = e.dataType := by
  induction e using induct with
  | step e ih =>
    have each : ∀ c ∈ e.children, (c.mapColumns f).dataType = c.dataType := fun c child =>
      ih c child fun attr held => typed attr (columns_subset_of_child child held)
    cases e with
    | column attr =>
      have own := typed attr (by rw [columns]; exact List.mem_cons_self)
      rw [own, dataType]
    | literal => rw [mapColumns]
    | cast | aggregate => rw [mapColumns, dataType, dataType]
    | aliased inner =>
      rw [mapColumns, dataType, dataType]
      exact each inner List.mem_cons_self
    | scalar func args =>
      have types : (args.map (mapColumns f)).map dataType = args.map dataType := by
        rw [List.map_map]
        exact List.map_congr_left each
      rw [mapColumns, dataType, dataType, mapColumnsOf_eq_map, dataTypes_eq_map, types,
        dataTypes_eq_map]
    | binary op left right =>
      have first := each left List.mem_cons_self
      have second := each right (List.mem_cons_of_mem left List.mem_cons_self)
      rw [mapColumns, dataType, dataType, first, second]

namespace ExpansionRow

/-- Column of the expansion to which a reference refers. -/
def outputColumn? (x : ExpansionRow) (attr : Attribute) : Option Attribute :=
  x.output.find? fun a => a.id = attr.id

/-- What a reference above the expansion designates: an expression of the projection, or without
one a column of the expansion. -/
def designated? (x : ExpansionRow) (attr : Attribute) : Option Expr :=
  match x.project? with
  | some expressions => expressions.find? fun e => e.outputId? = some attr.id
  | none => (x.outputColumn? attr).map .column

/-- The row has a cell for every column of the expansion, and the projection refers to columns of
the expansion only. -/
structure Closed (x : ExpansionRow) : Prop where
  long : x.output.length ≤ x.row.length
  projected : ∀ expressions, x.project? = some expressions → ∀ e ∈ expressions,
    ∀ attr ∈ e.columns, attr.id ∈ x.output.map Attribute.id

/-- Every cell has the type of its column, and every reference of the projection that of the column
to which it refers. -/
structure Typed (x : ExpansionRow) : Prop where
  cells : ∀ pair ∈ x.output.zip x.row, pair.2.dataType = pair.1.dataType
  projected : ∀ expressions, x.project? = some expressions → ∀ e ∈ expressions,
    ∀ attr ∈ e.columns, (x.outputColumn? attr).map Attribute.dataType = some attr.dataType

variable {x : ExpansionRow} {attr a : Attribute} {e d : Expr}

/-- Under a projection, a reference designates the first expression of its identity. -/
theorem designated?_of_some {expressions : List Expr} (projects : x.project? = some expressions) :
    x.designated? attr = expressions.find? fun e => e.outputId? = some attr.id := by
  rw [designated?, projects]

/-- Without a projection, a reference designates a column of the expansion. -/
theorem designated?_of_none (direct : x.project? = none) :
    x.designated? attr = (x.outputColumn? attr).map .column := by
  rw [designated?, direct]

/-- A reference has the identity of the column to which it refers. -/
theorem id_of_outputColumn? (refers : x.outputColumn? attr = some a) : a.id = attr.id := by
  have same := List.find?_some refers
  exact of_decide_eq_true same

/-- A reference refers to a column if the expansion has one of its identity. -/
theorem exists_outputColumn? (listed : attr.id ∈ x.output.map Attribute.id) :
    ∃ a, x.outputColumn? attr = some a :=
  exists_find?_id listed

/-- A row that is long enough has a cell for a column of the expansion. -/
theorem exists_value? (long : x.output.length ≤ x.row.length)
    (refers : x.outputColumn? attr = some a) :
    ∃ cell, (a, cell) ∈ x.output.zip x.row ∧ x.value? attr = some cell := by
  rw [value?_eq_cellFor?]
  exact exists_cellFor? long refers

/-- An expression over the columns of the expansion is left with columns of the row. -/
theorem columns_mapColumns_value? (long : x.output.length ≤ x.row.length)
    (refers : ∀ attr ∈ e.columns, ∃ a, x.outputColumn? attr = some a) :
    ∀ left ∈ (e.mapColumns x.value?).columns, ∃ cell ∈ x.row, left ∈ cell.columns := by
  intro left held
  rw [Expr.columns_mapColumns] at held
  obtain ⟨attr, given, inside⟩ := List.mem_flatMap.1 held
  obtain ⟨a, found⟩ := refers attr given
  obtain ⟨cell, paired, value⟩ := exists_value? long found
  rw [value, Option.getD_some] at inside
  exact ⟨cell, (List.of_mem_zip paired).2, inside⟩

/-- An expression over the columns of the expansion keeps its type in a row of their types. -/
theorem dataType_mapColumns_value? (long : x.output.length ≤ x.row.length)
    (cells : ∀ pair ∈ x.output.zip x.row, pair.2.dataType = pair.1.dataType)
    (refers : ∀ attr ∈ e.columns, ∃ a, x.outputColumn? attr = some a ∧ a.dataType = attr.dataType) :
    (e.mapColumns x.value?).dataType = e.dataType := by
  apply Expr.dataType_mapColumns
  intro attr given
  obtain ⟨a, found, same⟩ := refers attr given
  obtain ⟨cell, paired, value⟩ := exists_value? long found
  rw [Expr.mapColumns, value, Option.getD_some]
  exact (cells (a, cell) paired).trans same

/-- A reference stands for what it designates, with the cells of the row in place of the columns of
the expansion. -/
theorem resolve_column_eq (long : x.output.length ≤ x.row.length)
    (designates : x.designated? attr = some d) :
    x.resolve (.column attr) = d.stripAlias.mapColumns x.value? := by
  rw [resolve, Expr.mapColumns, resolveColumn?, projected?]
  cases projects : x.project? with
  | some expressions =>
    rw [designated?_of_some projects] at designates
    rw [Option.bind_some, designates, Option.getD_some]
  | none =>
    rw [designated?_of_none projects] at designates
    obtain ⟨a, found, rfl⟩ := Option.map_eq_some_iff.1 designates
    have same : a.id = attr.id := id_of_outputColumn? found
    obtain ⟨cell, -, value⟩ := exists_value? long found
    have again : x.value? a = some cell := by rw [value?, same, ← value?, value]
    rw [Option.bind_none, Expr.stripAlias, Expr.mapColumns, value, again, Option.getD_some,
      Option.getD_some]
    exact fun _ _ _ => Expr.noConfusion

/-- What a reference designates refers to columns of the expansion only, under their types if the
row is typed. -/
theorem Closed.refers (closed : x.Closed) (designates : x.designated? attr = some d) :
    ∀ inner ∈ d.stripAlias.columns, ∃ a, x.outputColumn? inner = some a ∧
      (x.Typed → a.dataType = inner.dataType) := by
  rw [Expr.columns_stripAlias]
  intro inner held
  cases projects : x.project? with
  | some expressions =>
    rw [designated?_of_some projects] at designates
    have listed : d ∈ expressions := List.mem_of_find?_eq_some designates
    obtain ⟨a, found⟩ :=
      exists_outputColumn? (closed.projected expressions projects d listed inner held)
    refine ⟨a, found, ?_⟩
    intro typed
    have same := typed.projected expressions projects d listed inner held
    rw [found, Option.map_some] at same
    exact Option.some.inj same
  | none =>
    rw [designated?_of_none projects] at designates
    obtain ⟨a, found, rfl⟩ := Option.map_eq_some_iff.1 designates
    rw [Expr.columns, List.mem_singleton] at held
    have itself : x.outputColumn? a = some a := by
      rw [outputColumn?, id_of_outputColumn? found, ← outputColumn?, found]
    rw [held]
    exact ⟨a, itself, fun _ => rfl⟩

/-- Resolution eliminates the expansion and keeps types. In a closed row, an expression whose
references all designate something is left with columns of the row; and if the row is typed and
each reference has the type of what it designates, the expression keeps its type. -/
theorem columns_and_dataType_resolve (closed : x.Closed)
    (exposed : ∀ attr ∈ e.columns, (x.designated? attr).isSome = true) :
    (∀ left ∈ (x.resolve e).columns, ∃ cell ∈ x.row, left ∈ cell.columns) ∧
    (x.Typed → (∀ attr ∈ e.columns, (x.designated? attr).map Expr.dataType = some attr.dataType) →
      (x.resolve e).dataType = e.dataType) := by
  constructor
  · intro left held
    rw [resolve, Expr.columns_mapColumns] at held
    obtain ⟨attr, given, inside⟩ := List.mem_flatMap.1 held
    obtain ⟨d, designates⟩ := Option.isSome_iff_exists.1 (exposed attr given)
    have stands := resolve_column_eq closed.long designates
    rw [resolve, Expr.mapColumns] at stands
    rw [stands] at inside
    apply columns_mapColumns_value? closed.long _ left inside
    intro inner here
    obtain ⟨a, found, -⟩ := closed.refers designates inner here
    exact ⟨a, found⟩
  · intro typed agree
    apply Expr.dataType_mapColumns
    intro attr given
    obtain ⟨d, designates⟩ := Option.isSome_iff_exists.1 (exposed attr given)
    have own := agree attr given
    rw [designates, Option.map_some] at own
    have refers : ∀ inner ∈ d.stripAlias.columns, ∃ a, x.outputColumn? inner = some a ∧
        a.dataType = inner.dataType := by
      intro inner here
      obtain ⟨a, found, same⟩ := closed.refers designates inner here
      exact ⟨a, found, same typed⟩
    calc
      ((Expr.column attr).mapColumns x.resolveColumn?).dataType
        = (d.stripAlias.mapColumns x.value?).dataType := by
          rw [← resolve, resolve_column_eq closed.long designates]
      _ = d.stripAlias.dataType := dataType_mapColumns_value? closed.long typed.cells refers
      _ = d.dataType := Expr.dataType_stripAlias d
      _ = attr.dataType := Option.some.inj own

end ExpansionRow

namespace Sales

/-- Country of a sale, or else its city. -/
def whereabouts : Attribute := { id := ⟨76⟩, name := "whereabouts", dataType := .string }

/-- The row of the sales by city, under a projection that computes their whereabouts. -/
def locatedRow : ExpansionRow where
  project? := some [.column price,
    .aliased (.scalar .coalesce [.column country, .column city]) "whereabouts" ⟨76⟩]
  output := output
  row := [.column price, .column scannedCity, .null .string, .literal (.int 1) .int64]

/-- A label of a sale: its whereabouts, or else its price. -/
def label : Expr :=
  .scalar .coalesce [.null .null, .column whereabouts, .cast (.column price) .string]

/-- The row by city has a cell of the right type for every column. -/
theorem closed_typed_locatedRow : locatedRow.Closed ∧ locatedRow.Typed := by
  refine ⟨⟨by decide, ?_⟩, ⟨by decide, ?_⟩⟩
  · rintro expressions ⟨⟩
    decide
  · rintro expressions ⟨⟩
    decide

end Sales

/-- In the row by city, the label of a sale stands for its city or price, without any column of the
expansion or of the projection, and is a text as before. -/
theorem columns_and_dataType_label :
    Sales.locatedRow.Closed ∧ Sales.locatedRow.Typed ∧
    (∀ attr ∈ Sales.label.columns, (Sales.locatedRow.designated? attr).map Expr.dataType =
      some attr.dataType) ∧
    (Sales.locatedRow.resolve Sales.label).columns = [Sales.scannedCity, Sales.price] ∧
    (∀ left ∈ (Sales.locatedRow.resolve Sales.label).columns,
      ∃ cell ∈ Sales.locatedRow.row, left ∈ cell.columns) ∧
    (Sales.locatedRow.resolve Sales.label).dataType = Sales.label.dataType := by
  obtain ⟨closed, typed⟩ := Sales.closed_typed_locatedRow
  have agree : ∀ attr ∈ Sales.label.columns,
      (Sales.locatedRow.designated? attr).map Expr.dataType = some attr.dataType := by decide
  have resolved := ExpansionRow.columns_and_dataType_resolve (e := Sales.label) closed (by decide)
  exact ⟨closed, typed, agree, rfl, resolved.1, resolved.2 typed agree⟩

end Rollup
