import Mathlib.Data.List.Basic
import Rollup.Expr.Columns
import Rollup.Expr.Peel

/-!
# Columns under replacement

Replacing columns leaves the shape of an expression alone, so the columns of the outcome are those
of the replacements, in the order of the columns that they replace. Aliases and casts have no
columns of their own, and the null constant has none at all. Where every column is replaced by a
column, the names and conversions around an expression stay as they are.
-/

namespace Rollup.Expr

/-- The columns after a replacement are those of what each column is replaced by. -/
theorem columns_mapColumns (f : Attribute → Option Expr) (e : Expr) :
    (e.mapColumns f).columns =
      e.columns.flatMap fun attr => ((f attr).getD (.column attr)).columns := by
  induction e using induct with
  | step e ih =>
    have args {es : List Expr} (each : ∀ c ∈ es, (c.mapColumns f).columns =
        c.columns.flatMap fun attr => ((f attr).getD (.column attr)).columns) :
        (es.map (mapColumns f)).flatMap columns =
          (es.flatMap columns).flatMap fun attr => ((f attr).getD (.column attr)).columns := by
      rw [List.flatMap_map, List.flatMap_assoc]
      exact List.flatMap_congr each
    cases e with
    | column attr => simp only [mapColumns, columns, List.flatMap_singleton]
    | literal => simp only [mapColumns, columns, List.flatMap_nil]
    | aliased inner => simpa only [mapColumns, columns] using ih inner List.mem_cons_self
    | cast inner => simpa only [mapColumns, columns] using ih inner List.mem_cons_self
    | binary op left right =>
      have first := ih left List.mem_cons_self
      have second := ih right (List.mem_cons_of_mem left List.mem_cons_self)
      rw [mapColumns, columns, columns, first, second, List.flatMap_append]
    | scalar _ es | aggregate _ es =>
      simpa only [mapColumns, mapColumnsOf_eq_map, columns, columnsOf_eq_flatMap, children]
        using args ih

/-- Aliases have no columns of their own. -/
theorem columns_stripAlias (e : Expr) : e.stripAlias.columns = e.columns := by
  fun_induction stripAlias e with
  | case1 inner _ _ ih => rw [ih, columns]
  | case2 e other => rfl

/-- Casts have no columns of their own. -/
theorem columns_stripCasts (e : Expr) : e.stripCasts.columns = e.columns := by
  fun_induction stripCasts e with
  | case1 inner _ ih => rw [ih, columns]
  | case2 e other => rfl

/-- Casts between numeric types have no columns of their own. -/
theorem columns_stripNumericCasts (e : Expr) : e.stripNumericCasts.columns = e.columns := by
  fun_induction stripNumericCasts e with
  | case1 inner _ _ ih => rw [ih, columns]
  | case2 | case3 => rfl

/-- The null constant has no columns. -/
theorem columns_of_isNullLiteral {e : Expr} (null : e.isNullLiteral = true) : e.columns = [] := by
  unfold isNullLiteral at null
  split at null
  · rename_i found
    rw [← columns_stripCasts, found, columns]
  · cases null

/-- The columns of an expression are columns of every list that has it. -/
theorem columns_subset_columnsOf {es : List Expr} {e : Expr} (given : e ∈ es) :
    e.columns ⊆ columnsOf es := by
  intro attr held
  rw [columnsOf_eq_flatMap]
  exact List.mem_flatMap.2 ⟨e, given, held⟩

/-- The columns of a list are columns of every list that has all its expressions. -/
theorem columnsOf_subset {es fs : List Expr} (included : es ⊆ fs) :
    columnsOf es ⊆ columnsOf fs := by
  intro attr held
  rw [columnsOf_eq_flatMap] at held
  obtain ⟨e, given, inside⟩ := List.mem_flatMap.1 held
  exact columns_subset_columnsOf (included given) inside

/-- The columns of an argument are columns of the call under its casts. -/
theorem columns_subset_of_arg {e arg : Expr} {func : ScalarFunction} {args : List Expr}
    (call : e.stripCasts = .scalar func args) (given : arg ∈ args) : arg.columns ⊆ e.columns := by
  rw [← columns_stripCasts e, call, columns]
  exact columns_subset_columnsOf given

/-- The columns of a direct subexpression are columns of the expression. -/
theorem columns_subset_of_child {e c : Expr} (child : c ∈ e.children) : c.columns ⊆ e.columns := by
  cases e with
  | column | literal => cases child
  | aliased inner | cast inner =>
    rw [List.mem_singleton.1 child, columns]
    exact List.Subset.refl _
  | binary op left right =>
    rw [columns]
    rcases List.mem_cons.1 child with rfl | last
    · exact List.subset_append_left _ _
    · rw [List.mem_singleton.1 last]
      exact List.subset_append_right _ _
  | scalar _ es | aggregate _ es =>
    rw [columns]
    exact columns_subset_columnsOf child

/-- An aggregate in an expression is the expression, or lies in a direct subexpression. -/
theorem exists_child_of_mem_calls {e : Expr} {call : AggregateCall} (inside : call ∈ e.calls) :
    e = call.toExpr ∨ ∃ c ∈ e.children, call ∈ c.calls := by
  cases e with
  | column | literal => simp only [calls, List.not_mem_nil] at inside
  | aliased inner | cast inner =>
    rw [calls] at inside
    exact Or.inr ⟨inner, List.mem_cons_self, inside⟩
  | scalar func args =>
    rw [calls, callsOf_eq_flatMap] at inside
    exact Or.inr (List.mem_flatMap.1 inside)
  | binary op left right =>
    rw [calls] at inside
    rcases List.mem_append.1 inside with first | second
    · exact Or.inr ⟨left, List.mem_cons_self, first⟩
    · exact Or.inr ⟨right, List.mem_cons_of_mem left List.mem_cons_self, second⟩
  | aggregate head args =>
    rw [calls] at inside
    rw [List.mem_singleton.1 inside]
    exact Or.inl rfl

/-- The columns of an aggregate are columns of every expression that has it. -/
theorem columns_subset_of_call {e : Expr} {call : AggregateCall} (inside : call ∈ e.calls) :
    call.toExpr.columns ⊆ e.columns := by
  induction e using induct with
  | step e ih =>
    rcases exists_child_of_mem_calls inside with rfl | ⟨c, child, deeper⟩
    · exact List.Subset.refl _
    · exact List.Subset.trans (ih c child deeper) (columns_subset_of_child child)

/-- Replacements that make the same of every column of an expression make the same of it. -/
theorem mapColumns_congr {f g : Attribute → Option Expr} {e : Expr}
    (agree : ∀ attr ∈ e.columns, (column attr).mapColumns f = (column attr).mapColumns g) :
    e.mapColumns f = e.mapColumns g := by
  induction e using induct with
  | step e ih =>
    have each : ∀ c ∈ e.children, c.mapColumns f = c.mapColumns g := fun c child =>
      ih c child fun attr held => agree attr (columns_subset_of_child child held)
    cases e with
    | column attr => exact agree attr (by rw [columns]; exact List.mem_cons_self)
    | literal => rw [mapColumns, mapColumns]
    | aliased inner | cast inner =>
      rw [mapColumns, mapColumns, each inner List.mem_cons_self]
    | binary op left right =>
      have second := each right (List.mem_cons_of_mem left List.mem_cons_self)
      rw [mapColumns, mapColumns, each left List.mem_cons_self, second]
    | scalar _ es | aggregate _ es =>
      have args : es.map (mapColumns f) = es.map (mapColumns g) := List.map_congr_left each
      rw [mapColumns, mapColumns, mapColumnsOf_eq_map, mapColumnsOf_eq_map, args]

/-! ## Renaming -/

/-- The replacement of every column is a column. -/
def Renames (f : Attribute → Option Expr) : Prop :=
  ∀ attr e, f attr = some e → ∃ renamed, e = .column renamed

variable {f : Attribute → Option Expr}

/-- A renamed column is a column. -/
theorem Renames.exists_column (renames : Renames f) (attr : Attribute) :
    ∃ renamed, (column attr).mapColumns f = .column renamed := by
  cases found : f attr with
  | none => exact ⟨attr, by rw [mapColumns, found, Option.getD_none]⟩
  | some e =>
    obtain ⟨renamed, rfl⟩ := renames attr e found
    exact ⟨renamed, by rw [mapColumns, found, Option.getD_some]⟩

/-- Columns are renamed under aliases. -/
theorem Renames.stripAlias_mapColumns (renames : Renames f) (e : Expr) :
    (e.mapColumns f).stripAlias = e.stripAlias.mapColumns f := by
  fun_induction stripAlias e with
  | case1 inner name id ih => rw [mapColumns, stripAlias, ih]
  | case2 e other =>
    cases e with
    | column attr =>
      obtain ⟨renamed, same⟩ := renames.exists_column attr
      rw [same, stripAlias]
      exact fun _ _ _ => Expr.noConfusion
    | aliased inner name id => exact absurd rfl (other inner name id)
    | literal | cast | scalar | binary | aggregate =>
      rw [mapColumns, stripAlias]
      exact fun _ _ _ => Expr.noConfusion

/-- Columns are renamed under casts. -/
theorem Renames.stripCasts_mapColumns (renames : Renames f) (e : Expr) :
    (e.mapColumns f).stripCasts = e.stripCasts.mapColumns f := by
  fun_induction stripCasts e with
  | case1 inner type ih => rw [mapColumns, stripCasts, ih]
  | case2 e other =>
    cases e with
    | column attr =>
      obtain ⟨renamed, same⟩ := renames.exists_column attr
      rw [same, stripCasts]
      exact fun _ _ => Expr.noConfusion
    | cast inner type => exact absurd rfl (other inner type)
    | literal | aliased | scalar | binary | aggregate =>
      rw [mapColumns, stripCasts]
      exact fun _ _ => Expr.noConfusion

end Rollup.Expr
