import Rollup.Proofs.Casts
import Rollup.Proofs.Scripts

/-!
# Aggregates with a native form

Which aggregates the store can compute without scripts, told case by case: counts of rows, counts
of distinct values, averages of metrics, and sums, least and greatest values of metrics that are no
wider than what the aggregate declares. Without scripts, a complete aggregate of one of these cases
is computed, and no other.
-/

namespace Rollup

/-- The type is numeric and no wider than another numeric type. -/
def DataType.NoWider (narrow wide : DataType) : Prop :=
  ∃ i j, narrow.rank? = some i ∧ wide.rank? = some j ∧ i ≤ j

/-- Only numeric types are compared by width. -/
theorem DataType.NoWider.isNumeric {narrow wide : DataType} (narrower : narrow.NoWider wide) :
    narrow.isNumeric = true := by
  obtain ⟨i, j, ranked, -, -⟩ := narrower
  rw [DataType.isNumeric, ranked, Option.isSome_some]

/-- Of a numeric type and another type, the other one is their common type exactly if it is numeric
and at least as wide. -/
theorem DataType.common?_eq_left_iff {wide narrow : DataType} (numeric : narrow.isNumeric = true) :
    wide.common? narrow = some wide ↔ narrow.NoWider wide := by
  cases narrow <;> cases wide <;> simp_all [NoWider, common?, rank?, isNumeric]

namespace Scope

/-- The single argument of the aggregate is a column of the relation under numeric casts. -/
def ReadsThrough (s : Scope) (r : Relation) (call : AggregateCall)
    (casts : List (DataType × DataType)) (column : Column) : Prop :=
  ∃ arg attr, call.args = [arg] ∧ Expr.NumericCastOf (.column attr) casts (s.resolve arg) ∧
    r.column? attr.name = some column

/-- The aggregate counts what every row has: nothing, or a single argument that stands for one
under casts, and under aliases around those. It stands for one if it is the constant or a column
that is named for it. -/
inductive CountsOne (s : Scope) (call : AggregateCall) : Prop
  | nothing (noArgs : call.args = [])
  | constant {arg inner : Expr} {value : Value} {type : DataType}
      {casts : List (DataType × DataType)} (single : call.args = [arg])
      (named : Expr.AliasOf inner (s.resolve arg))
      (cast : Expr.CastOf (.literal value type) casts inner) (one : value.isOne = true)
  | column {arg inner : Expr} {attr : Attribute} {casts : List (DataType × DataType)}
      (single : call.args = [arg]) (named : Expr.AliasOf inner (s.resolve arg))
      (cast : Expr.CastOf (.column attr) casts inner) (one : attr.name = "1")

/-- The store can compute the aggregate without scripts. -/
inductive HasNativeForm (s : Scope) (r : Relation) (call : AggregateCall) : Prop
  | rowCount (counts : call.func = .count) (plain : call.distinct = false) (one : s.CountsOne call)
  | distinctCount {casts : List (DataType × DataType)} {column : Column}
      (counts : call.func = .approxCountDistinct ∨ call.func = .count ∧ call.distinct = true)
      (reads : s.ReadsThrough r call casts column)
      (countable : column.kind = .dimension ∨
        r.prefersSketches = true ∧ ∃ sketch, column.sketch? = some sketch)
  | average {casts : List (DataType × DataType)} {column : Column} (averages : call.func = .avg)
      (plain : call.distinct = false) (reads : s.ReadsThrough r call casts column)
      (metric : column.kind = .metric) (numeric : column.dataType.isNumeric = true)
  | measure {casts : List (DataType × DataType)} {column : Column}
      (measures : call.func = .sum ∨ call.func = .min ∨ call.func = .max)
      (plain : call.distinct = false) (reads : s.ReadsThrough r call casts column)
      (metric : column.kind = .metric) (narrow : column.dataType.NoWider call.dataType)

variable {s : Scope} {q : Query} {call : AggregateCall} {column : Column}

/-- The single argument of an aggregate is the only one in its list. -/
theorem singleArg?_eq_some_iff {arg : Expr} :
    call.singleArg? = some arg ↔ call.args = [arg] := by
  unfold AggregateCall.singleArg?
  split
  · rename_i single
    rw [single, Option.some_inj, List.cons.injEq, and_iff_left rfl]
  · rename_i other
    constructor
    · intro given
      cases given
    · intro single
      exact (other arg single).elim

/-- The column that an aggregate reads is the one under the numeric casts of its argument. -/
theorem argumentColumn?_eq_some_iff :
    s.argumentColumn? q call = some column ↔
      ∃ casts, s.ReadsThrough q.relation call casts column := by
  constructor
  · intro read
    obtain ⟨arg, single, read⟩ := Option.bind_eq_some_iff.1 read
    obtain ⟨attr, bare, found⟩ := Option.bind_eq_some_iff.1 read
    obtain ⟨casts, cast⟩ :=
      Expr.stripNumericCasts_eq_column_iff.1 (Expr.column?_eq_some_iff.1 bare)
    exact ⟨casts, arg, attr, singleArg?_eq_some_iff.1 single, cast, found⟩
  · rintro ⟨casts, arg, attr, single, cast, found⟩
    refine Option.bind_eq_some_iff.2 ⟨arg, singleArg?_eq_some_iff.2 single, ?_⟩
    refine Option.bind_eq_some_iff.2 ⟨attr, Expr.column?_eq_some_iff.2 ?_, found⟩
    exact Expr.stripNumericCasts_eq_column_iff.2 ⟨casts, cast⟩

/-- What stands under casts and under aliases around those is found there, if it is neither an
alias nor a cast itself. -/
theorem stripped_eq {e inner base : Expr} {casts : List (DataType × DataType)}
    (named : Expr.AliasOf inner e) (cast : Expr.CastOf base casts inner)
    (unnamed : base.stripAlias = base) (uncast : base.stripCasts = base) :
    e.stripAlias.stripCasts = base := by
  rw [named.stripAlias_eq, cast.stripAlias_eq unnamed, cast.stripCasts_eq, uncast]

/-- Rows are counted exactly by the aggregates of what every row has. -/
theorem countsRows_iff : s.countsRows call = true ↔ s.CountsOne call := by
  constructor
  · intro counts
    unfold countsRows at counts
    split at counts
    · rename_i noArgs
      exact .nothing noArgs
    · rename_i arg single
      have named := Expr.aliasOf_stripAlias (s.resolve arg)
      obtain ⟨casts, cast⟩ := Expr.exists_castOf (s.resolve arg).stripAlias
      split at counts
      · rename_i constant
        exact .constant single named (constant ▸ cast) counts
      · rename_i column
        exact .column single named (column ▸ cast) (beq_iff_eq.1 counts)
      · cases counts
    · cases counts
  · intro counts
    unfold countsRows
    cases counts with
    | nothing noArgs => rw [noArgs]
    | constant single named cast one =>
      have bare := stripped_eq named cast rfl rfl
      simp only [single, bare, one]
    | column single named cast one =>
      have bare := stripped_eq named cast rfl rfl
      simp only [single, bare, one, beq_self_eq_true]

/-- A row count has a native form if it counts what every row has. -/
theorem rowCountCall?_isSome_iff :
    (s.rowCountCall? q call).isSome = true ↔
      call.func = .count ∧ call.distinct = false ∧ call.mode = .complete ∧ s.CountsOne call := by
  unfold rowCountCall? isNativeMode
  rw [Option.isSome_ite]
  simp only [Bool.and_eq_true, beq_iff_eq, Bool.not_eq_true', countsRows_iff, and_assoc]

/-- Distinct values of a column are counted if it is a dimension or has a preferred sketch. -/
theorem distinctCount?_isSome_iff {r : Relation} :
    (distinctCount? r column).isSome = true ↔ column.kind = .dimension ∨
      r.prefersSketches = true ∧ ∃ sketch, column.sketch? = some sketch := by
  unfold distinctCount?
  cases r.prefersSketches <;> cases column.sketch? <;> simp

/-- The aggregates that count distinct values. -/
theorem countsDistinct_iff :
    countsDistinct call = true ↔
      call.func = .approxCountDistinct ∨ call.func = .count ∧ call.distinct = true := by
  unfold countsDistinct
  cases call.func <;> simp

/-- A count of distinct values has a native form if the store can count the values of the column
that it reads. -/
theorem distinctCall?_isSome_iff :
    (s.distinctCall? q call).isSome = true ↔
      (call.func = .approxCountDistinct ∨ call.func = .count ∧ call.distinct = true) ∧
        ∃ casts column, s.ReadsThrough q.relation call casts column ∧
          (column.kind = .dimension ∨
            q.relation.prefersSketches = true ∧ ∃ sketch, column.sketch? = some sketch) := by
  rw [← countsDistinct_iff]
  unfold distinctCall?
  split
  · rename_i counts
    simp only [counts, true_and, Option.isSome_bind, Option.isSome_map, Option.any_eq_true,
      argumentColumn?_eq_some_iff, distinctCount?_isSome_iff]
    constructor
    · rintro ⟨column, ⟨casts, reads⟩, countable⟩
      exact ⟨casts, column, reads, countable⟩
    · rintro ⟨casts, column, reads, countable⟩
      exact ⟨column, ⟨casts, reads⟩, countable⟩
  · rename_i other
    simp [other]

/-- The aggregators of the store are sums, least and greatest values. -/
theorem nativeFunction?_isSome_iff {func : AggregateFunction} {type : DataType} :
    (nativeFunction? func type).isSome = true ↔ func = .sum ∨ func = .min ∨ func = .max := by
  cases func <;> cases integral : type.isIntegral <;> simp [nativeFunction?, integral]

/-- An aggregate over a metric has a native form if it is an average of numbers, or a sum, least or
greatest value of a metric that is no wider than what it declares. -/
theorem metricCall?_isSome_iff :
    (s.metricCall? q call).isSome = true ↔
      call.distinct = false ∧ ∃ casts column, s.ReadsThrough q.relation call casts column ∧
        column.kind = .metric ∧
          (call.func = .avg ∧ column.dataType.isNumeric = true ∨
            (call.func = .sum ∨ call.func = .min ∨ call.func = .max) ∧
              column.dataType.NoWider call.dataType) := by
  unfold metricCall?
  split
  · rename_i distinct
    simp [distinct]
  rename_i plain
  rw [Bool.not_eq_true] at plain
  simp only [plain, true_and, Option.isSome_bind, Option.any_eq_true, argumentColumn?_eq_some_iff]
  constructor
  · rintro ⟨column, ⟨casts, reads⟩, given⟩
    refine ⟨casts, column, reads, ?_⟩
    split at given
    · rename_i metric
      rw [Bool.and_eq_true, beq_iff_eq] at metric
      refine ⟨metric.1, ?_⟩
      split at given
      · rename_i averages
        exact Or.inl ⟨beq_iff_eq.1 averages, metric.2⟩
      split at given
      · rename_i compatible
        rw [Option.isSome_map, nativeFunction?_isSome_iff] at given
        refine Or.inr ⟨given, ?_⟩
        exact (DataType.common?_eq_left_iff metric.2).1 (beq_iff_eq.1 compatible)
      · cases given
    · cases given
  · rintro ⟨casts, column, reads, metric, form⟩
    refine ⟨column, ⟨casts, reads⟩, ?_⟩
    rcases form with ⟨averages, numeric⟩ | ⟨measures, narrow⟩
    · rw [if_pos (by simp [metric, numeric]), if_pos (by simp [averages]), metricAverage?,
        Option.isSome_map, nativeFunction?_isSome_iff]
      exact Or.inl rfl
    · have numeric := narrow.isNumeric
      have compatible : isTypeCompatible call column = true :=
        beq_iff_eq.2 ((DataType.common?_eq_left_iff numeric).2 narrow)
      have other : ¬ (call.func == .avg) = true := by
        rcases measures with sum | min | max
        · simp [sum]
        · simp [min]
        · simp [max]
      rw [if_pos (by simp [metric, numeric]), if_neg other, if_pos compatible, Option.isSome_map,
        nativeFunction?_isSome_iff]
      exact measures

/-- The native forms are those of complete aggregates. -/
theorem nativeForm?_isSome_iff :
    (s.nativeForm? q call).isSome = true ↔
      call.mode = .complete ∧ s.HasNativeForm q.relation call := by
  constructor
  · intro formed
    rw [nativeForm?, Option.isSome_or, Bool.or_eq_true, rowCountCall?_isSome_iff] at formed
    rcases formed with ⟨counts, plain, complete, one⟩ | formed
    · exact ⟨complete, .rowCount counts plain one⟩
    unfold nativeCall? at formed
    split at formed
    · rename_i complete
      refine ⟨beq_iff_eq.1 complete, ?_⟩
      rw [Option.isSome_or, Bool.or_eq_true, distinctCall?_isSome_iff, metricCall?_isSome_iff]
        at formed
      rcases formed with ⟨counts, casts, column, reads, countable⟩ | formed
      · exact .distinctCount counts reads countable
      obtain ⟨plain, casts, column, reads, metric, ⟨averages, numeric⟩ | ⟨measures, narrow⟩⟩ :=
        formed
      · exact .average averages plain reads metric numeric
      · exact .measure measures plain reads metric narrow
    · cases formed
  · rintro ⟨complete, form⟩
    rw [nativeForm?, Option.isSome_or, Bool.or_eq_true]
    -- every case but the row count is left to the forms of complete aggregates
    have byColumn (formed : (s.distinctCall? q call).isSome = true ∨
        (s.metricCall? q call).isSome = true) : (s.nativeCall? q call).isSome = true := by
      have native : isNativeMode call = true := beq_iff_eq.2 complete
      rw [nativeCall?, if_pos native, Option.isSome_or, Bool.or_eq_true]
      exact formed
    cases form with
    | rowCount counts plain one =>
      exact Or.inl (rowCountCall?_isSome_iff.2 ⟨counts, plain, complete, one⟩)
    | distinctCount counts reads countable =>
      exact Or.inr (byColumn (Or.inl (distinctCall?_isSome_iff.2 ⟨counts, _, _, reads, countable⟩)))
    | average averages plain reads metric numeric =>
      refine Or.inr (byColumn (Or.inr (metricCall?_isSome_iff.2 ?_)))
      exact ⟨plain, _, _, reads, metric, Or.inl ⟨averages, numeric⟩⟩
    | measure measures plain reads metric narrow =>
      refine Or.inr (byColumn (Or.inr (metricCall?_isSome_iff.2 ?_)))
      exact ⟨plain, _, _, reads, metric, Or.inr ⟨measures, narrow⟩⟩

/-- Without scripts, an aggregate that the host does not fill in is computed exactly if it is
complete and has a native form. -/
theorem exists_lowerCall?_iff (unscripted : s.scripts = .none)
    (asked : s.isOverridden call.id = false) :
    (∃ q', s.lowerCall? q call = some q') ↔
      call.mode = .complete ∧ s.HasNativeForm q.relation call := by
  have scriptless := scriptForm?_eq_none (compile?_eq_none unscripted) q call
  rw [← Option.isSome_iff_exists, lowerCall?_eq, asked, if_neg Bool.false_ne_true, scriptless,
    Option.or_none, nativeForm?_isSome_iff]

end Scope

namespace Sales

/-- Number of rows that a row of the sales stands for. -/
def sold : Attribute := { id := ⟨4⟩, name := "n", dataType := .int64 }

/-- Sales without an expansion and without scripts. -/
def unexpanded : Scope where
  settings := .allEnabled
  scripts := .none
  row? := none
  overrides := .empty
  storeColumns := .empty

/-- The query over the sales that asks for nothing yet. -/
def blank : Query := { relation }

/-- The total number of sales, taken as floating-point numbers and declared as a type. -/
def soldAs (declared : DataType) : AggregateCall :=
  { id := ⟨61⟩, func := .sum, dataType := declared, args := [.cast (.column sold) .float64] }

end Sales

/-- The total number of sales has a native form if a floating-point number is declared, and none if
a short integer is: the numbers of sales are wider. -/
theorem exists_lowerCall?_soldAs :
    Sales.unexpanded.scripts = .none ∧ Sales.unexpanded.isOverridden ⟨61⟩ = false ∧
    (∃ q', Sales.unexpanded.lowerCall? Sales.blank (Sales.soldAs .float64) = some q') ∧
    Sales.unexpanded.HasNativeForm Sales.relation (Sales.soldAs .float64) ∧
    ¬ Sales.unexpanded.HasNativeForm Sales.relation (Sales.soldAs .int16) := by
  have computed : ∃ q', Sales.unexpanded.lowerCall? Sales.blank (Sales.soldAs .float64) = some q' :=
    Option.isSome_iff_exists.1 (by decide +kernel)
  have refused : (Sales.unexpanded.lowerCall? Sales.blank (Sales.soldAs .int16)).isSome = false := by
    decide +kernel
  refine ⟨rfl, rfl, computed, ((Scope.exists_lowerCall?_iff rfl rfl).1 computed).2, ?_⟩
  intro form
  have given := (Scope.exists_lowerCall?_iff (q := Sales.blank) rfl rfl).2 ⟨rfl, form⟩
  rw [← Option.isSome_iff_exists, refused] at given
  cases given

end Rollup
