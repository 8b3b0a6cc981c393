import Rollup.Expr.Peel

/-!
# Conversions around an expression

What lies under the casts and aliases of an expression, told by how the expression is built from it
and not by how it is taken apart. Casts are listed one by one, since each of them may change the
value.
-/

namespace Rollup.Expr

/-- The expression is another one under casts. The types of operand and target are listed for each
cast, from the outside in. -/
inductive CastOf (base : Expr) : List (DataType × DataType) → Expr → Prop
  | bare : CastOf base [] base
  | cast {casts : List (DataType × DataType)} {inner : Expr} {target : DataType}
      (below : CastOf base casts inner) :
      CastOf base ((inner.dataType, target) :: casts) (.cast inner target)

/-- The expression is another one under aliases. -/
inductive AliasOf (base : Expr) : Expr → Prop
  | bare : AliasOf base base
  | aliased {inner : Expr} {name : String} {id : ExprId} (below : AliasOf base inner) :
      AliasOf base (.aliased inner name id)

/-- The expression is another one under casts to numeric types, of numbers or of the null type. -/
structure NumericCastOf (base : Expr) (casts : List (DataType × DataType)) (e : Expr) : Prop where
  chain : CastOf base casts e
  numeric : ∀ c ∈ casts, c.2.isNumeric = true ∧ (c.1.isNumeric = true ∨ c.1 = .null)

variable {e base : Expr} {attr : Attribute} {casts : List (DataType × DataType)}

/-- An expression is what lies under its casts, under casts. -/
theorem exists_castOf (e : Expr) : ∃ casts, CastOf e.stripCasts casts e := by
  fun_induction stripCasts e with
  | case1 inner target ih =>
    obtain ⟨casts, below⟩ := ih
    exact ⟨_, .cast below⟩
  | case2 e other => exact ⟨[], .bare⟩

/-- An expression is what lies under its aliases, under aliases. -/
theorem aliasOf_stripAlias (e : Expr) : AliasOf e.stripAlias e := by
  fun_induction stripAlias e with
  | case1 inner name id ih => exact .aliased ih
  | case2 e other => exact .bare

/-- A cast is taken away as a numeric one exactly if it is one by its types. -/
theorem isNumericCast_eq_true_iff {target : DataType} :
    e.isNumericCast target = true ↔
      target.isNumeric = true ∧ (e.dataType.isNumeric = true ∨ e.dataType = .null) := by
  simp only [isNumericCast, Bool.and_eq_true, Bool.or_eq_true, beq_iff_eq]

/-- An expression is itself under no casts. -/
theorem NumericCastOf.bare : NumericCastOf base [] base :=
  ⟨.bare, fun _ held => absurd held List.not_mem_nil⟩

/-- An expression is what lies under its numeric casts, under numeric casts. -/
theorem exists_numericCastOf (e : Expr) : ∃ casts, NumericCastOf e.stripNumericCasts casts e := by
  fun_induction stripNumericCasts e with
  | case1 inner target numeric ih =>
    obtain ⟨casts, below, others⟩ := ih
    have first := isNumericCast_eq_true_iff.1 numeric
    exact ⟨_, .cast below, List.forall_mem_cons.2 ⟨first, others⟩⟩
  | case2 | case3 => exact ⟨[], .bare⟩

/-- Casts do not change what lies under them. -/
theorem CastOf.stripCasts_eq (cast : CastOf base casts e) : e.stripCasts = base.stripCasts := by
  induction cast with
  | bare => rfl
  | cast _ ih => rw [stripCasts, ih]

/-- No name stands around casts of what has none. -/
theorem CastOf.stripAlias_eq (cast : CastOf base casts e) (unnamed : base.stripAlias = base) :
    e.stripAlias = e := by
  cases cast with
  | bare => exact unnamed
  | cast => rfl

/-- Aliases do not change what lies under them. -/
theorem AliasOf.stripAlias_eq (named : AliasOf base e) : e.stripAlias = base.stripAlias := by
  induction named with
  | bare => rfl
  | aliased _ ih => rw [stripAlias, ih]

/-- Numeric casts do not change what lies under them. -/
theorem NumericCastOf.stripNumericCasts_eq (cast : NumericCastOf base casts e) :
    e.stripNumericCasts = base.stripNumericCasts := by
  obtain ⟨chain, numeric⟩ := cast
  induction chain with
  | bare => rfl
  | cast _ ih =>
    obtain ⟨first, others⟩ := List.forall_mem_cons.1 numeric
    rw [stripNumericCasts, if_pos (isNumericCast_eq_true_iff.2 first), ih others]

/-- A column lies under the numeric casts of an expression exactly if the expression is the column
under numeric casts. -/
theorem stripNumericCasts_eq_column_iff :
    e.stripNumericCasts = .column attr ↔ ∃ casts, NumericCastOf (.column attr) casts e := by
  constructor
  · intro bare
    exact bare ▸ exists_numericCastOf e
  · rintro ⟨casts, cast⟩
    rw [cast.stripNumericCasts_eq, stripNumericCasts]
    exact fun _ _ => Expr.noConfusion

end Rollup.Expr
