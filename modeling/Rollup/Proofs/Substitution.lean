import Rollup.Lowering.Scope
import Rollup.Proofs.Places

/-!
# Replacements of columns compose

Replacing columns is a substitution: to replace nothing changes nothing, two replacements are one,
and the columns of the outcome are those that were left alone and those of the replacements. What an
expression stands for is found by such replacements, first of the columns of a projection, then of
those of an expansion, and last of names by those of the store; so it is found column by column.
-/

namespace Rollup

namespace Expr

/-- The replacement of columns by one function, and of the columns of the outcome by another. -/
def followedBy (f g : Attribute → Option Expr) (attr : Attribute) : Option Expr :=
  match f attr with
  | some d => some (d.mapColumns g)
  | none => g attr

/-- A column of this identity occurs. -/
def HasColumn (e : Expr) (id : ExprId) : Prop := ∃ p attr, e.ColumnAt p attr ∧ attr.id = id

/-- Two replacements are one. -/
theorem mapColumns_mapColumns (f g : Attribute → Option Expr) (e : Expr) :
    (e.mapColumns f).mapColumns g = e.mapColumns (followedBy f g) := by
  induction e using induct with
  | step e ih =>
    cases e with
    | column attr =>
      rw [mapColumns, mapColumns, followedBy]
      cases f attr with
      | none => rw [Option.getD_none, mapColumns]
      | some d => rw [Option.getD_some, Option.getD_some]
    | literal => rw [mapColumns, mapColumns, mapColumns]
    | aliased inner | cast inner =>
      rw [mapColumns, mapColumns, mapColumns, ih inner List.mem_cons_self]
    | binary op left right =>
      have second := ih right (List.mem_cons_of_mem left List.mem_cons_self)
      rw [mapColumns, mapColumns, mapColumns, ih left List.mem_cons_self, second]
    | scalar _ es | aggregate _ es =>
      have args : (es.map (mapColumns f)).map (mapColumns g) =
          es.map (mapColumns (followedBy f g)) := by
        rw [List.map_map]
        exact List.map_congr_left ih
      rw [mapColumns, mapColumns, mapColumns, mapColumnsOf_eq_map, mapColumnsOf_eq_map,
        mapColumnsOf_eq_map, args]

/-- An identity occurs exactly if a listed column has it. -/
theorem hasColumn_iff {e : Expr} {id : ExprId} :
    e.HasColumn id ↔ ∃ attr ∈ e.columns, attr.id = id := by
  constructor
  · rintro ⟨p, attr, occurs, same⟩
    exact ⟨attr, mem_columns_iff.2 ⟨p, occurs⟩, same⟩
  · rintro ⟨attr, listed, same⟩
    obtain ⟨p, occurs⟩ := mem_columns_iff.1 listed
    exact ⟨p, attr, occurs, same⟩

/-- An identity occurs after a replacement exactly if it occurs in what some column becomes. -/
theorem hasColumn_mapColumns_iff {f : Attribute → Option Expr} {e : Expr} {id : ExprId} :
    (e.mapColumns f).HasColumn id ↔
      ∃ attr ∈ e.columns, ((f attr).getD (.column attr)).HasColumn id := by
  simp only [hasColumn_iff, columns_mapColumns, List.mem_flatMap]
  constructor
  · rintro ⟨left, ⟨attr, listed, inside⟩, same⟩
    exact ⟨attr, listed, left, inside, same⟩
  · rintro ⟨attr, listed, left, inside, same⟩
    exact ⟨left, ⟨attr, listed, inside⟩, same⟩

/-- In a column, only its own identity occurs. -/
theorem hasColumn_column_iff {attr : Attribute} {id : ExprId} :
    (column attr).HasColumn id ↔ attr.id = id := by
  rw [hasColumn_iff, columns]
  simp only [List.mem_singleton, exists_eq_left]

/-- Replacing columns is a lawful substitution. To replace nothing changes nothing; two replacements
are one, which replaces the columns of the first replacements and what the first leaves alone; and
an identity occurs in the outcome exactly if a column that is left alone has it, or it occurs in
what a column is replaced by. -/
theorem mapColumns_substitutes (e : Expr) (f g : Attribute → Option Expr) :
    e.mapColumns (fun _ => none) = e ∧
    (e.mapColumns f).mapColumns g = e.mapColumns (followedBy f g) ∧
    ∀ id, (e.mapColumns f).HasColumn id ↔ ∃ p attr, e.ColumnAt p attr ∧
      (f attr = none ∧ attr.id = id ∨ ∃ d, f attr = some d ∧ d.HasColumn id) := by
  refine ⟨mapColumns_none e, mapColumns_mapColumns f g e, ?_⟩
  intro id
  have becomes (attr : Attribute) : ((f attr).getD (.column attr)).HasColumn id ↔
      (f attr = none ∧ attr.id = id ∨ ∃ d, f attr = some d ∧ d.HasColumn id) := by
    cases f attr with
    | none => simp [hasColumn_column_iff]
    | some d => simp
  rw [hasColumn_mapColumns_iff]
  constructor
  · rintro ⟨attr, listed, inside⟩
    obtain ⟨p, occurs⟩ := mem_columns_iff.1 listed
    exact ⟨p, attr, occurs, (becomes attr).1 inside⟩
  · rintro ⟨p, attr, occurs, inside⟩
    exact ⟨attr, mem_columns_iff.2 ⟨p, occurs⟩, (becomes attr).2 inside⟩

end Expr

/-! ## Resolution -/

/-- In a row, the columns of the projection are replaced first, and then those of the expansion. -/
theorem ExpansionRow.resolve_eq_mapColumns_value? (x : ExpansionRow) (e : Expr) :
    x.resolve e =
      (e.mapColumns fun attr => (x.projected? attr).map Expr.stripAlias).mapColumns x.value? := by
  have stages : x.resolveColumn? =
      Expr.followedBy (fun attr => (x.projected? attr).map Expr.stripAlias) x.value? := by
    funext attr
    rw [resolveColumn?, Expr.followedBy]
    cases x.projected? attr <;> rfl
  rw [Expr.mapColumns_mapColumns, ← stages, resolve]

/-- An expression is resolved column by column. -/
theorem Scope.resolve_eq_mapColumns (s : Scope) (e : Expr) :
    s.resolve e = e.mapColumns fun attr => some (s.resolve (.column attr)) := by
  have one : ∃ f, ∀ d, s.resolve d = d.mapColumns f := by
    cases row : s.row? with
    | none =>
      refine ⟨s.storeColumn?, fun d => ?_⟩
      rw [resolve, inRowOf, row, withStoreNames]
    | some x =>
      refine ⟨Expr.followedBy x.resolveColumn? s.storeColumn?, fun d => ?_⟩
      rw [resolve, inRowOf, row]
      exact Expr.mapColumns_mapColumns x.resolveColumn? s.storeColumn? d
  obtain ⟨f, resolved⟩ := one
  rw [resolved e]
  apply Expr.mapColumns_congr
  intro attr _
  rw [← resolved, Expr.mapColumns, Option.getD_some]

end Rollup
