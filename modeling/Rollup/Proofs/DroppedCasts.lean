import Rollup.Proofs.NativeGate

/-!
# Casts that native forms drop

A native form over a column is that of the bare column: the numeric casts of the argument leave no
trace in it, whether they widen a number or narrow it. Only sums, least and greatest values look at
types at all. They compare the type of the column with the one that is declared, so that where the
argument has the declared type its casts widen as a whole, though not each on its own.
-/

namespace Rollup

/-- Numbers of the first type are numbers of the second as well: it is their common type. -/
def DataType.Widens (narrow wide : DataType) : Prop := narrow.common? wide = some wide

/-- A numeric type widens to every numeric type that is at least as wide. -/
theorem DataType.NoWider.widens {narrow wide : DataType} (narrower : narrow.NoWider wide) :
    narrow.Widens wide := by
  rw [Widens, common?_comm]
  exact (common?_eq_left_iff narrower.isNumeric).2 narrower

/-- A cast to a numeric type widens, unless its operand is of a numeric type that is wider. -/
theorem DataType.widens_or_noWider {operand target : DataType} (numeric : target.isNumeric = true)
    (castable : operand.isNumeric = true ∨ operand = .null) :
    operand.Widens target ∨ target.NoWider operand ∧ target ≠ operand := by
  rcases castable with castable | rfl
  · obtain ⟨i, targetRank⟩ := Option.isSome_iff_exists.1 numeric
    obtain ⟨j, operandRank⟩ := Option.isSome_iff_exists.1 castable
    by_cases same : target = operand
    · exact Or.inl (same ▸ common?_self target)
    rcases Nat.le_total j i with wider | narrower
    · have narrower : operand.NoWider target := ⟨j, i, operandRank, targetRank, wider⟩
      exact Or.inl narrower.widens
    · exact Or.inr ⟨⟨i, j, targetRank, operandRank, narrower⟩, same⟩
  · exact Or.inl (null_common? target)

namespace Expr

variable {base e : Expr} {casts : List (DataType × DataType)}

/-- Each numeric cast has a numeric target, and widens unless its operand is wider. -/
theorem NumericCastOf.widens_or_narrows (cast : NumericCastOf base casts e) :
    ∀ c ∈ casts, c.2.isNumeric = true ∧ (c.1.Widens c.2 ∨ c.2.NoWider c.1 ∧ c.2 ≠ c.1) := by
  intro c listed
  obtain ⟨numeric, operand⟩ := cast.numeric c listed
  exact ⟨numeric, DataType.widens_or_noWider numeric operand⟩

/-- A single cast leads from the type of what is cast to the type of the whole. -/
theorem CastOf.eq_of_singleton {c : DataType × DataType} (cast : CastOf base [c] e) :
    c = (base.dataType, e.dataType) := by
  cases cast with
  | cast below =>
    cases below
    rfl

end Expr

namespace Scope

/-- The scope in which every column is one of the store. -/
def overStore (s : Scope) : Scope := { s with row? := none, storeColumns := .empty }

/-- The aggregate of a bare column. -/
def overColumn (call : AggregateCall) (attr : Attribute) : AggregateCall :=
  { call with args := [.column attr] }

variable {s s' : Scope} {q q' : Query} {call : AggregateCall} {attr : Attribute}

/-- A bare column of the store is read under its own name. -/
theorem argumentColumn?_overColumn :
    s.overStore.argumentColumn? q (overColumn call attr) = q.relation.column? attr.name := rfl

/-- An aggregate that is computed by one aggregation adds just that one. -/
@[simp] theorem aggregations_addCall (aggregation : String → Aggregation) (storeType : StoreType) :
    (addCall q call aggregation storeType).aggregations =
      q.aggregations ++ [aggregation q.freshAlias.1] := rfl

section Argument

variable {args : List Expr}

/-- Counts of distinct values depend on the argument through its column alone. -/
theorem aggregations_distinctCall?_congr
    (same : s'.argumentColumn? q { call with args } = s.argumentColumn? q call) :
    (s'.distinctCall? q { call with args }).map Query.aggregations =
      (s.distinctCall? q call).map Query.aggregations := by
  have counts : countsDistinct { call with args } = countsDistinct call := rfl
  unfold distinctCall?
  rw [same, counts]
  split
  · cases s.argumentColumn? q call with
    | none => rfl
    | some column =>
      simp only [Option.bind_some, Option.map_map, Function.comp_def, aggregations_addCall]
  · rfl

/-- Aggregates over metrics depend on the argument through its column alone. -/
theorem aggregations_metricCall?_congr
    (same : s'.argumentColumn? q { call with args } = s.argumentColumn? q call) :
    (s'.metricCall? q { call with args }).map Query.aggregations =
      (s.metricCall? q call).map Query.aggregations := by
  unfold metricCall?
  rw [same]
  split
  · rfl
  cases s.argumentColumn? q call with
  | none => rfl
  | some column =>
    have compatible : isTypeCompatible { call with args } column = isTypeCompatible call column :=
      rfl
    simp only [Option.bind_some, compatible, apply_ite (Option.map Query.aggregations),
      Option.map_map, Function.comp_def, aggregations_addCall, metricAverage?]
    rfl

/-- An aggregate that does not count rows depends on the argument through its column alone. -/
theorem aggregations_nativeForm?_congr
    (measures : ¬ (call.func = .count ∧ call.distinct = false))
    (same : s'.argumentColumn? q { call with args } = s.argumentColumn? q call) :
    (s'.nativeForm? q { call with args }).map Query.aggregations =
      (s.nativeForm? q call).map Query.aggregations := by
  have noRowCount (s : Scope) (args : List Expr) :
      s.rowCountCall? q { call with args } = none := by
    rw [← Option.not_isSome_iff_eq_none, rowCountCall?_isSome_iff]
    rintro ⟨counts, plain, -⟩
    exact measures ⟨counts, plain⟩
  have noRowCount' := noRowCount s call.args
  rw [nativeForm?, nativeForm?, noRowCount, noRowCount', Option.none_or, Option.none_or,
    nativeCall?, nativeCall?]
  change Option.map _ (if isNativeMode call then _ else _) = _
  split
  · rw [Option.map_or, Option.map_or, aggregations_distinctCall?_congr same,
      aggregations_metricCall?_congr same]
  · rfl

end Argument

/-- A scripted form adds a script. -/
theorem exists_script_of_scriptForm? (formed : s.scriptForm? q call = some q') :
    ∃ name function rest, q'.aggregations = q.aggregations ++ .script name function :: rest := by
  unfold scriptForm? at formed
  split at formed
  · obtain ⟨sum, -, formed⟩ := Option.bind_eq_some_iff.1 formed
    obtain ⟨count, -, rfl⟩ := Option.map_eq_some_iff.1 formed
    exact ⟨_, sum, [_], List.append_assoc _ _ _⟩
  · obtain ⟨function, -, rfl⟩ := Option.map_eq_some_iff.1 formed
    exact ⟨_, function, [], rfl⟩

/-- An aggregate that is computed without scripts is computed in its native form. -/
theorem nativeForm?_of_isNative {specs : List Aggregation}
    (asked : s.isOverridden call.id = false) (lowered : s.lowerCall? q call = some q')
    (added : q'.aggregations = q.aggregations ++ specs)
    (native : ∀ a ∈ specs, a.isNative = true) : s.nativeForm? q call = some q' := by
  rw [lowerCall?_eq, asked, if_neg Bool.false_ne_true] at lowered
  rcases Option.or_eq_some_iff.1 lowered with formed | ⟨-, scripted⟩
  · exact formed
  · obtain ⟨name, function, rest, script⟩ := exists_script_of_scriptForm? scripted
    rw [added, List.append_cancel_left_eq] at script
    cases native (.script name function) (script ▸ List.mem_cons_self)

/-- The aggregate has the native form of the same aggregate over a bare column, which lies under
numeric casts of its argument. -/
theorem exists_lowerCall?_overColumn {column : Column}
    (asked : s.isOverridden call.id = false) (formed : s.nativeForm? q call = some q')
    (measures : ¬ (call.func = .count ∧ call.distinct = false))
    (read : s.argumentColumn? q call = some column)
    (found : q.relation.column? attr.name = some column) :
    ∃ bare, s.overStore.lowerCall? q (overColumn call attr) = some bare ∧
      bare.aggregations = q'.aggregations := by
  have same : s.overStore.argumentColumn? q (overColumn call attr) = s.argumentColumn? q call := by
    rw [argumentColumn?_overColumn, found, read]
  have forms := aggregations_nativeForm?_congr measures same
  rw [formed, Option.map_some] at forms
  obtain ⟨bare, bareFormed, aggregations⟩ := Option.map_eq_some_iff.1 forms
  refine ⟨bare, ?_, aggregations⟩
  have bareAsked : s.overStore.isOverridden (overColumn call attr).id = false := asked
  rw [lowerCall?_eq, bareAsked, if_neg Bool.false_ne_true]
  exact Option.or_eq_some_iff.2 (Or.inl bareFormed)

/-- The aggregate is answered from a column as if its argument were that column, though the argument
is the column under numeric casts. -/
structure AnsweredUncast (s : Scope) (q : Query) (call : AggregateCall) (q' : Query) (arg : Expr)
    (attr : Attribute) (casts : List (DataType × DataType)) (column : Column) : Prop where
  single : call.args = [arg]
  cast : Expr.NumericCastOf (.column attr) casts (s.resolve arg)
  found : q.relation.column? attr.name = some column
  /-- The aggregations are those of the bare column. -/
  bare : ∃ bare, s.overStore.lowerCall? q (overColumn call attr) = some bare ∧
    bare.aggregations = q'.aggregations
  /-- A cast that is dropped widens, unless its operand is of a wider numeric type. -/
  dropped : ∀ c ∈ casts, c.2.isNumeric = true ∧ (c.1.Widens c.2 ∨ c.2.NoWider c.1 ∧ c.2 ≠ c.1)
  /-- The column of a sum, least or greatest value is no wider than what is declared. Where this is
  the type of the argument, and the column has its own type, the casts widen as a whole. -/
  gated : call.func = .sum ∨ call.func = .min ∨ call.func = .max →
    column.dataType.Widens call.dataType ∧
      (attr.dataType = column.dataType → (s.resolve arg).dataType = call.dataType →
        attr.dataType.Widens (s.resolve arg).dataType ∧ ∀ c, casts = [c] → c.1.Widens c.2)

/-- A column that is no wider than what is declared passes its type on to the casts around it. -/
theorem widens_of_declared {arg : Expr} {casts : List (DataType × DataType)} {column : Column}
    (cast : Expr.NumericCastOf (.column attr) casts (s.resolve arg))
    (narrow : column.dataType.Widens call.dataType) (own : attr.dataType = column.dataType)
    (declared : (s.resolve arg).dataType = call.dataType) :
    attr.dataType.Widens (s.resolve arg).dataType ∧ ∀ c, casts = [c] → c.1.Widens c.2 := by
  have whole : attr.dataType.Widens (s.resolve arg).dataType := by
    rw [own, declared]
    exact narrow
  refine ⟨whole, ?_⟩
  rintro c rfl
  rw [cast.chain.eq_of_singleton]
  exact whole

/-- A native form that reads a column is answered from it without the casts, if sums, least and
greatest values have declared a type that is wide enough. -/
theorem exists_answeredUncast {casts : List (DataType × DataType)} {column : Column}
    (asked : s.isOverridden call.id = false) (formed : s.nativeForm? q call = some q')
    (reads : s.ReadsThrough q.relation call casts column)
    (measures : ¬ (call.func = .count ∧ call.distinct = false))
    (narrow : call.func = .sum ∨ call.func = .min ∨ call.func = .max →
      column.dataType.Widens call.dataType) :
    ∃ arg attr casts column, s.AnsweredUncast q call q' arg attr casts column := by
  have read := argumentColumn?_eq_some_iff.2 ⟨casts, reads⟩
  obtain ⟨arg, attr, single, cast, found⟩ := reads
  refine ⟨arg, attr, casts, column, single, cast, found, ?_, cast.widens_or_narrows, ?_⟩
  · exact exists_lowerCall?_overColumn asked formed measures read found
  · intro measure
    exact ⟨narrow measure, widens_of_declared cast (narrow measure)⟩

/-- An aggregate that is computed natively counts rows, or is answered from a column without the
casts around it. -/
theorem answeredUncast_of_lowerCall? {specs : List Aggregation}
    (asked : s.isOverridden call.id = false) (lowered : s.lowerCall? q call = some q')
    (added : q'.aggregations = q.aggregations ++ specs)
    (native : ∀ a ∈ specs, a.isNative = true) :
    (call.func = .count ∧ call.distinct = false ∧ s.CountsOne call) ∨
      ∃ arg attr casts column, s.AnsweredUncast q call q' arg attr casts column := by
  have formed := nativeForm?_of_isNative asked lowered added native
  have form := (nativeForm?_isSome_iff.1 (Option.isSome_iff_exists.2 ⟨q', formed⟩)).2
  cases form with
  | rowCount counts plain one => exact Or.inl ⟨counts, plain, one⟩
  | distinctCount counts reads countable =>
    refine Or.inr (exists_answeredUncast asked formed reads ?_ ?_)
    · rcases counts with approximate | ⟨-, distinct⟩
      · simp [approximate]
      · simp [distinct]
    · rcases counts with approximate | ⟨count, -⟩
      · simp [approximate]
      · simp [count]
  | average averages plain reads metric numeric =>
    refine Or.inr (exists_answeredUncast asked formed reads ?_ ?_)
    · simp [averages]
    · simp [averages]
  | measure measures plain reads metric narrow =>
    refine Or.inr (exists_answeredUncast asked formed reads ?_ fun _ => narrow.widens)
    rintro ⟨count, -⟩
    simp [count] at measures

end Scope

namespace Sales

/-- Number of rows that a row of the sales stands for, cut down to a byte. -/
def soldByte : Expr := .cast (.column sold) .int8

/-- An aggregate of these bytes. -/
def ofBytes (func : AggregateFunction) (declared : DataType) : AggregateCall :=
  { id := ⟨62⟩, func, dataType := declared, args := [soldByte] }

/-- The greatest of these bytes, after they are widened again. -/
def greatestByte : AggregateCall :=
  { id := ⟨63⟩, func := .max, dataType := .int64, args := [.cast soldByte .int64] }

/-- The aggregations that compute an aggregate over the sales. -/
def aggregationsOf (call : AggregateCall) : Option (List Aggregation) :=
  (unexpanded.lowerCall? blank call).map Query.aggregations

end Sales

/-- The greatest byte is computed natively, and answered as the greatest number of sales. -/
theorem answeredUncast_greatestByte :
    ∃ q', Sales.unexpanded.lowerCall? Sales.blank Sales.greatestByte = some q' ∧
      q'.aggregations = [.native .longMax "alias-0" (some "n")] ∧
      ∃ arg attr casts column,
        Sales.unexpanded.AnsweredUncast Sales.blank Sales.greatestByte q' arg attr casts
          column := by
  have computed : Sales.aggregationsOf Sales.greatestByte =
      some [.native .longMax "alias-0" (some "n")] := by
    decide +kernel
  obtain ⟨q', lowered, aggregations⟩ := Option.map_eq_some_iff.1 computed
  refine ⟨q', lowered, aggregations, ?_⟩
  have answered := Scope.answeredUncast_of_lowerCall? rfl lowered aggregations
    (by simp [Aggregation.isNative])
  exact answered.resolve_left fun rows => by cases rows.1

/-- A sum of numbers that are cut down to bytes is answered by the sum of the numbers themselves,
and so are their average, and their greatest value after they are widened again: casts are dropped
that do not widen. -/
theorem dropped_of_narrowing :
    Expr.NumericCastOf (.column Sales.sold) [(.int64, .int8)]
      (Sales.unexpanded.resolve Sales.soldByte) ∧
    ¬ DataType.int64.Widens .int8 ∧
    Sales.aggregationsOf (Sales.ofBytes .sum .int64) =
      some [.native .longSum "alias-0" (some "n")] ∧
    Sales.aggregationsOf (Sales.ofBytes .avg .float64) =
      some [.native .longSum "alias-0" (some "n"), .native .longSum "alias-1" (some "n")] ∧
    Sales.aggregationsOf Sales.greatestByte = some [.native .longMax "alias-0" (some "n")] := by
  have numeric : Expr.NumericCastOf (.column Sales.sold) [(.int64, .int8)]
      (Sales.unexpanded.resolve Sales.soldByte) :=
    ⟨.cast .bare, List.forall_mem_singleton.2 ⟨rfl, Or.inl rfl⟩⟩
  refine ⟨numeric, ?_, ?_, ?_, ?_⟩
  · intro widens
    cases widens
  all_goals decide +kernel

end Rollup
