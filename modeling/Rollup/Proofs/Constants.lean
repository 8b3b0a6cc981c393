import Mathlib.Algebra.BigOperators.Group.List.Lemmas
import Mathlib.Data.List.Pairwise
import Rollup.Proofs.Groups

/-!
# Constants in place of aggregates

Where the row of an expansion has a constant for the only input of an aggregate, the host fills in
a constant for the aggregate. It should be the value that the aggregate has over every group of
rows with that constant. For a null it is, except for counts: they are zero, and a null is filled
in. A column that numbers the grouping sets is filled in by its number, which is right for the
aggregates that give back a value they are given.
-/

namespace Rollup

namespace Value

/-- The number for which a value stands, if it is a finite one. -/
def number? : Value → Option ℚ
  | int n => some n
  | float x =>
    if x.isFinite then some ((if x.isNegative then -1 else 1) * x.significand * 2 ^ x.exponent)
    else none
  | null | bool _ | string _ => none

/-- Order of the values of one kind. -/
def Less : Value → Value → Prop
  | bool a, bool b => a = false ∧ b = true
  | string a, string b => a < b
  | v, w => ∃ x y, v.number? = some x ∧ w.number? = some y ∧ x < y

/-- No value is less than itself. -/
theorem not_less_self (v : Value) : ¬ v.Less v := by
  cases v with
  | bool b =>
    rintro ⟨isFalse, isTrue⟩
    rw [isFalse] at isTrue
    cases isTrue
  | string s => exact String.lt_irrefl s
  | null | int n | float x =>
    rintro ⟨x, y, left, right, less⟩
    cases left.symm.trans right
    exact lt_irrefl x less

end Value

/-- The values that are not null. -/
def present (values : List Value) : List Value := values.filter fun v => !v.isNull

namespace AggregateFunction

/-- Mean of the squared distances from the mean, for a sample. -/
def sampleVariance (numbers : List ℚ) : ℚ :=
  (numbers.map fun x => (x - numbers.sum / numbers.length) ^ 2).sum / (numbers.length - 1)

/-- The number that an aggregate computes from numbers. -/
def Measures (numbers : List ℚ) (x : ℚ) : AggregateFunction → Prop
  | varSamp => x = sampleVariance numbers
  | stddevSamp => 0 ≤ x ∧ x ^ 2 = sampleVariance numbers
  | func => func.Yields numbers x

/-- The average of a number that is the same for all rows is that number. -/
theorem measures_avg (n : Nat) (x : ℚ) : avg.Measures (List.replicate (n + 1) x) x := by
  show x = (List.replicate (n + 1) x).sum / (List.replicate (n + 1) x).length
  rw [List.sum_replicate, List.length_replicate, nsmul_eq_mul, mul_div_cancel_left₀]
  exact Nat.cast_ne_zero.2 (Nat.succ_ne_zero n)

/-- Number of values from which an aggregate can be computed. -/
def needed : AggregateFunction → Nat
  | varSamp | stddevSamp => 2
  | _ => 1

/-- The aggregate counts. -/
def counts (func : AggregateFunction) : Bool := func ∈ [count, approxCountDistinct]

/-- The aggregate of a value that is the same for all rows is that value. -/
def givesBack (func : AggregateFunction) (v : Value) : Bool :=
  func ∈ [min, max, first, last] || func = avg && v.number?.isSome

end AggregateFunction

namespace AggregateHead

/-- The values that an aggregate is taken of: those that are not null, once each if they must be
distinct. -/
def taken (head : AggregateHead) (values : List Value) : List Value :=
  if head.distinct then (present values).pwFilter fun v w => v.same w = false else present values

/-- The host evaluates an aggregate over the values of its argument in a group of rows. Nulls are
passed over, except by the first and the last value. -/
def Evaluates (head : AggregateHead) (values : List Value) (v : Value) : Prop :=
  match head.func with
  | .count => v = .int (head.taken values).length
  | .approxCountDistinct => ∃ n : Nat, v = .int n ∧ (n = 0 ↔ present values = [])
  | .first => values.head? = some v
  | .last => values.getLast? = some v
  | .min => present values = [] ∧ v = .null ∨
    v ∈ present values ∧ ∀ w ∈ present values, ¬ w.Less v
  | .max => present values = [] ∧ v = .null ∨
    v ∈ present values ∧ ∀ w ∈ present values, ¬ v.Less w
  | func => (head.taken values).length < func.needed ∧ v = .null ∨
    func.needed ≤ (head.taken values).length ∧ ∃ numbers x,
      (head.taken values).map Value.number? = numbers.map some ∧ v.number? = some x ∧
        func.Measures numbers x

variable (head : AggregateHead) {values : List Value}

/-- Over nothing but nulls, counts are zero and all other aggregates are null. -/
theorem evaluates_null (nonempty : values ≠ []) (nulls : ∀ w ∈ values, w = .null) :
    head.Evaluates values (if head.func.counts then .int 0 else .null) := by
  have absent : present values = [] := by
    refine List.filter_eq_nil_iff.2 fun w held => ?_
    rw [nulls w held]
    decide
  have untaken : head.taken values = [] := by
    rw [taken, absent, List.pwFilter_nil, ite_self]
  unfold Evaluates
  cases head.func with
  | count => exact congrArg (fun l : List Value => Value.int l.length) untaken.symm
  | approxCountDistinct => exact ⟨0, rfl, iff_of_true rfl absent⟩
  | first =>
    obtain ⟨w, rest, rfl⟩ := List.exists_cons_of_ne_nil nonempty
    exact congrArg some (nulls w List.mem_cons_self)
  | last =>
    rw [List.getLast?_eq_some_getLast nonempty, nulls _ (List.getLast_mem nonempty)]
    rfl
  | min | max => exact Or.inl ⟨absent, rfl⟩
  | sum | avg | stddevSamp | varSamp =>
    refine Or.inl ⟨?_, rfl⟩
    rw [untaken]
    decide

/-- A pairwise filter keeps some value of a list that has any. -/
theorem pwFilter_ne_nil {R : Value → Value → Prop} [DecidableRel R] (nonempty : values ≠ []) :
    values.pwFilter R ≠ [] := by
  obtain ⟨w, rest, rfl⟩ := List.exists_cons_of_ne_nil nonempty
  by_cases apart : ∀ y ∈ rest.pwFilter R, R w y
  · rw [List.pwFilter_cons_of_pos apart]
    exact List.cons_ne_nil _ _
  · rw [List.pwFilter_cons_of_neg apart]
    intro lost
    rw [lost] at apart
    exact apart fun y held => absurd held List.not_mem_nil

/-- A value other than null that is the same for all rows is present in all of them. -/
theorem present_constant {c : Value} (known : c ≠ .null) (constant : ∀ w ∈ values, w = c) :
    present values = values := by
  refine List.filter_eq_self.2 fun w held => ?_
  rw [constant w held]
  cases c with
  | null => exact absurd rfl known
  | bool | int | float | string => rfl

/-- Of a value other than null that is the same for all rows, an aggregate is taken at least once,
and of nothing else. -/
theorem taken_constant {c : Value} (known : c ≠ .null) (nonempty : values ≠ [])
    (constant : ∀ w ∈ values, w = c) : ∃ n, head.taken values = List.replicate (n + 1) c := by
  have only : ∀ w ∈ head.taken values, w = c := by
    unfold taken
    rw [present_constant known constant]
    split
    · exact fun w held => constant w ((List.pwFilter_sublist _).subset held)
    · exact constant
  have kept : head.taken values ≠ [] := by
    unfold taken
    rw [present_constant known constant]
    split
    · exact pwFilter_ne_nil nonempty
    · exact nonempty
  obtain ⟨n, length⟩ := Nat.exists_eq_succ_of_ne_zero
    fun zero => kept (List.length_eq_zero_iff.1 zero)
  exact ⟨n, List.eq_replicate_iff.2 ⟨length, only⟩⟩

/-- Over one number in all rows, the average is that number. -/
theorem evaluates_avg {c : Value} {x : ℚ} (averages : head.func = .avg)
    (number : c.number? = some x) (nonempty : values ≠ []) (constant : ∀ w ∈ values, w = c) :
    head.Evaluates values c := by
  have known : c ≠ .null := by
    rintro rfl
    cases number
  obtain ⟨n, taken⟩ := head.taken_constant known nonempty constant
  have numbers : (head.taken values).map Value.number? = (List.replicate (n + 1) x).map some := by
    rw [taken, List.map_replicate, List.map_replicate, number]
  unfold Evaluates
  rw [averages]
  refine Or.inr ⟨?_, _, x, numbers, number, AggregateFunction.measures_avg n x⟩
  rw [taken, List.length_replicate]
  exact Nat.succ_pos n

/-- Over one value in all rows, an aggregate that gives it back has that value. -/
theorem evaluates_constant {c : Value} (nonempty : values ≠ []) (constant : ∀ w ∈ values, w = c)
    (back : head.func.givesBack c = true) : head.Evaluates values c := by
  have extreme (order : Value → Value → Prop) (irreflexive : ∀ v, ¬ order v v) :
      present values = [] ∧ c = .null ∨
        c ∈ present values ∧ ∀ w ∈ present values, ¬ order w c := by
    cases present : present values with
    | nil =>
      refine Or.inl ⟨rfl, ?_⟩
      by_contra known
      exact nonempty ((present_constant known constant).symm.trans present)
    | cons w rest =>
      have same : ∀ v ∈ w :: rest, v = c := fun v held =>
        constant v (List.mem_of_mem_filter (present ▸ held))
      refine Or.inr ⟨same w List.mem_cons_self ▸ List.mem_cons_self, fun v held => ?_⟩
      rw [same v held]
      exact irreflexive c
  cases func : head.func with
  | count | approxCountDistinct | sum | stddevSamp | varSamp =>
    rw [func] at back
    cases back
  | avg =>
    rw [func] at back
    obtain ⟨x, number⟩ := Option.isSome_iff_exists.1 (show c.number?.isSome = true from back)
    exact head.evaluates_avg func number nonempty constant
  | first =>
    obtain ⟨w, rest, rfl⟩ := List.exists_cons_of_ne_nil nonempty
    rw [Evaluates, func]
    exact congrArg some (constant w List.mem_cons_self)
  | last =>
    rw [Evaluates, func]
    exact (List.getLast?_eq_some_getLast nonempty).trans
      (congrArg some (constant _ (List.getLast_mem nonempty)))
  | min =>
    rw [Evaluates, func]
    exact extreme Value.Less Value.not_less_self
  | max =>
    rw [Evaluates, func]
    exact extreme (fun w v => v.Less w) Value.not_less_self

end AggregateHead

namespace Expr

/-- A typed null is filled in for an expression exactly if it is filled in for what the expression
names. -/
theorem nullOverride?_stripAlias (e : Expr) (rowValue? : Option Expr) :
    e.stripAlias.nullOverride? rowValue? = e.nullOverride? rowValue? := by
  unfold nullOverride?
  rw [soleColumn?_stripAlias, dataType_stripAlias]

/-- Where the row has a literal for the only input, the constant that is filled in has its value. -/
theorem constant?_of_override? {e v : Expr} {c : Value} {type : DataType}
    (filled : e.override? (some (.literal c type)) = some v ∨
      e.nullOverride? (some (.literal c type)) = some v) : v.constant? = some c := by
  have ofNull (filled : e.nullOverride? (some (.literal c type)) = some v) :
      v.constant? = some c := by
    obtain ⟨-, ⟨cell, same, null⟩, rfl⟩ := eq_null_of_nullOverride? filled
    cases same
    have known : (Expr.literal c type).constant? = some .null := constant?_of_isNullLiteral null
    exact known.symm
  rcases filled with filled | filled
  · obtain ⟨attr, sole⟩ := exists_soleColumn?_of_override? filled
    cases marks : attr.isGroupingId with
    | false =>
      rw [override?_eq_nullOverride? sole marks] at filled
      exact ofNull filled
    | true =>
      unfold override? markerOverride? at filled
      rw [sole] at filled
      simp only [marks, ↓reduceIte, Option.some_or] at filled
      rw [← Option.some.inj filled]
      rfl
  · exact ofNull filled

/-- Casts of a column do not matter for whether it stands for a null. -/
theorem isNullLiteral_mapColumns {e : Expr} {attr : Attribute}
    (bare : e.stripNumericCasts = .column attr) (f : Attribute → Option Expr) :
    (e.mapColumns f).isNullLiteral = ((Expr.column attr).mapColumns f).isNullLiteral := by
  fun_induction stripNumericCasts e with
  | case1 inner target numeric ih =>
    rw [← ih bare, mapColumns, isNullLiteral, stripCasts, isNullLiteral]
  | case2 inner target numeric => cases bare
  | case3 e other => rw [bare]

end Expr

namespace AggregateCall

/-- The only input of an aggregate is its single argument under numeric casts. -/
theorem exists_arg_of_soleColumn? {call : AggregateCall} {attr : Attribute}
    (sole : call.toExpr.soleColumn? = some attr) :
    ∃ arg, call.args = [arg] ∧ arg.stripNumericCasts = .column attr := by
  unfold toExpr at sole
  match args : call.args with
  | [] =>
    rw [args] at sole
    cases sole
  | [arg] =>
    rw [args, Expr.soleColumn?] at sole
    exact ⟨arg, rfl, Expr.column?_eq_some_iff.1 sole⟩
  | first :: second :: rest =>
    rw [args] at sole
    cases sole

end AggregateCall

namespace ExpansionRow

/-- What is filled in for an expression that owns its identity is decided by the value at the place
of its only input. -/
theorem override_of_get?_overrides {x : ExpansionRow} {outputs : List Expr} {id : ExprId}
    {e v : Expr} (owns : OwnsId outputs (id, e))
    (filled : (x.overrides outputs).get? id = some v) :
    e.override? (x.inputValue? e) = some v ∨ e.nullOverride? (x.inputValue? e) = some v := by
  obtain ⟨e', given, listed⟩ := List.mem_flatMap.1 (Table.mem_of_get?_ofList filled)
  rcases mem_outputOverrides listed with ⟨named, found⟩ | ⟨call, inside, rfl, part, found⟩
  · have expr : e' = e := owns (id, e')
      (List.mem_flatMap.2 ⟨e', given, Expr.mem_identities_self named⟩) rfl
    rw [expr] at given named found
    rw [valueAt?_positions given (mem_parts_self named) owns] at found
    exact Or.inl found
  · have expr : call.toExpr = e := owns (call.id, call.toExpr)
      (List.mem_flatMap.2 ⟨e', given, Expr.mem_identities_call inside⟩) rfl
    rw [expr] at part found
    rw [valueAt?_positions given part owns] at found
    exact Or.inr found

end ExpansionRow

/-- A grouping set with a row of an expansion is the grouping set of that row. -/
theorem GroupingSet.eq_ofRow {input : Plan} {groupBy outputs : List Expr} {set : GroupingSet}
    (member : set ∈ input.groupingSets groupBy outputs) {x : ExpansionRow}
    (row : set.row? = some x) : set = .ofRow groupBy outputs x := by
  unfold Plan.groupingSets decompose at member
  split at member
  · obtain ⟨x', -, rfl⟩ := List.mem_map.1 member
    cases row
    rfl
  · rw [List.mem_singleton.1 member] at row
    cases row

/-- What the host fills in for an aggregate that owns its identity. Unless its argument numbers the
grouping sets, the argument is null in the row and a null of the type of the aggregate is filled in,
which is the value of the aggregate over every group of such rows except for counts. And for an
aggregate that gives back the literal which its argument has at its place in the row, that literal
is filled in. -/
theorem evaluates_of_override {input : Plan} {groupBy outputs : List Expr} {set : GroupingSet}
    (member : set ∈ input.groupingSets groupBy outputs) {x : ExpansionRow}
    (row : set.row? = some x) {id : ExprId} {e : Expr} (owns : OwnsId outputs (id, e))
    {call : AggregateCall} (names : e.stripAlias = call.toExpr) {v : Expr}
    (filled : set.overrides.get? id = some v) :
    ∃ arg attr, call.args = [arg] ∧ arg.stripNumericCasts = .column attr ∧
      (attr.isGroupingId = false →
        (x.resolve arg).constant? = some .null ∧ v = .null call.dataType ∧
        ∀ values, values ≠ [] → (∀ w ∈ values, w = .null) →
          call.Evaluates values (if call.func.counts then .int 0 else .null)) ∧
      ∀ c type, arg = .column attr → x.inputValue? arg = some (.literal c type) →
        call.func.givesBack c = true → v.constant? = some c ∧
        ∀ values, values ≠ [] → (∀ w ∈ values, w = c) → call.Evaluates values c := by
  rw [GroupingSet.eq_ofRow member row] at filled
  have decided := ExpansionRow.override_of_get?_overrides owns filled
  rw [← Expr.override?_stripAlias, ← Expr.nullOverride?_stripAlias,
    ← ExpansionRow.inputValue?_stripAlias, names] at decided
  obtain ⟨attr, sole⟩ : ∃ attr, call.toExpr.soleColumn? = some attr := by
    rcases decided with filled | filled
    · exact Expr.exists_soleColumn?_of_override? filled
    · exact (Expr.eq_null_of_nullOverride? filled).1
  obtain ⟨arg, single, bare⟩ := AggregateCall.exists_arg_of_soleColumn? sole
  rw [ExpansionRow.inputValue?_of_soleColumn? sole] at decided
  refine ⟨arg, attr, single, bare, ?_, ?_⟩
  · intro plain
    rw [Expr.override?_eq_nullOverride? sole plain, or_self] at decided
    obtain ⟨-, ⟨cell, found, null⟩, typed⟩ := Expr.eq_null_of_nullOverride? decided
    have stands : x.resolve (.column attr) = cell := x.resolve_column_of_inputValue? found
    have nullArg : (x.resolve arg).isNullLiteral = true := by
      rw [ExpansionRow.resolve, Expr.isNullLiteral_mapColumns bare]
      rw [ExpansionRow.resolve] at stands
      rw [stands, null]
    refine ⟨Expr.constant?_of_isNullLiteral nullArg, typed, ?_⟩
    intro values nonempty nulls
    exact call.evaluates_null nonempty nulls
  · intro c type whole literal back
    rw [whole] at literal
    rw [literal] at decided
    refine ⟨Expr.constant?_of_override? decided, ?_⟩
    intro values nonempty constant
    exact call.evaluates_constant nonempty constant back

namespace Sales

/-- The row of the rollup that nulls out the country. -/
def byCity : ExpansionRow where
  project? := none
  output := output
  row := [.column price, .column scannedCity, .null .string, .literal (.int 1) .int64]

/-- The last country by name. -/
def lastCountry : AggregateCall :=
  { id := ⟨50⟩, func := .max, dataType := .string, args := [.column country] }

/-- The number of sales with a country. -/
def countries : AggregateCall :=
  { id := ⟨52⟩, func := .count, dataType := .int64, args := [.column country] }

/-- The number of sales with a number of the grouping set. -/
def numbered : AggregateCall :=
  { id := ⟨54⟩, func := .count, dataType := .int64, args := [.column marker] }

/-- The sum of the prices, under the identity of the country. -/
def total : AggregateCall :=
  { id := ⟨12⟩, func := .sum, dataType := .float64, args := [.column price] }

/-- Aggregates as outputs. -/
def aggregateOutputs : List Expr := [
  .aliased lastCountry.toExpr "last_country" ⟨51⟩, .aliased countries.toExpr "countries" ⟨53⟩,
  .aliased numbered.toExpr "numbered" ⟨55⟩]

end Sales

/-- Where the country is nulled out, a null is filled in for the last country, which is its value
over two sales without a country. -/
theorem evaluates_lastCountry :
    ∃ set ∈ (Plan.expand Sales.scan Sales.projections Sales.output).groupingSets Sales.groupBy
        Sales.aggregateOutputs,
      set.row? = some Sales.byCity ∧ set.overrides.get? ⟨51⟩ = some (.null .string) ∧
      Sales.lastCountry.Evaluates [.null, .null] .null := by
  have member : GroupingSet.ofRow Sales.groupBy Sales.aggregateOutputs Sales.byCity ∈
      (Plan.expand Sales.scan Sales.projections Sales.output).groupingSets Sales.groupBy
        Sales.aggregateOutputs :=
    List.mem_map.2 ⟨Sales.byCity, List.mem_cons_of_mem _ List.mem_cons_self, rfl⟩
  have consistent : ConsistentIds Sales.aggregateOutputs := consistentIds_of_nodup (by decide)
  have owns := consistent (⟨51⟩, .aliased Sales.lastCountry.toExpr "last_country" ⟨51⟩)
    List.mem_cons_self
  have filled : (GroupingSet.ofRow Sales.groupBy Sales.aggregateOutputs
      Sales.byCity).overrides.get? ⟨51⟩ = some (.null .string) := rfl
  have names : (Expr.aliased Sales.lastCountry.toExpr "last_country" ⟨51⟩).stripAlias =
      Sales.lastCountry.toExpr := rfl
  obtain ⟨arg, attr, single, bare, nulls, -⟩ :=
    evaluates_of_override member rfl owns names filled
  cases single
  cases bare
  obtain ⟨-, -, evaluated⟩ := nulls (by decide)
  exact ⟨_, member, rfl, filled, evaluated [.null, .null] (by decide) (by decide)⟩

/-- Where the country is nulled out, a null is filled in for the number of sales with a country,
which is zero; the number of the set is filled in for the number of sales that have it; and under
one identity for two expressions, a null is filled in for a sum that is five. -/
theorem not_evaluates_override :
    ((Sales.byCity.overrides Sales.aggregateOutputs).get? ⟨53⟩ = some (.null .int64) ∧
      ¬ Sales.countries.Evaluates [.null] .null) ∧
    ((Sales.byCity.overrides Sales.aggregateOutputs).get? ⟨55⟩ =
        some (.literal (.int 1) .int64) ∧
      ¬ Sales.numbered.Evaluates [.int 1, .int 1] (.int 1)) ∧
    (Sales.byCity.overrides [Sales.total.toExpr, .column Sales.country]).get? ⟨12⟩ =
        some (.null .string) ∧
      ¬ Sales.total.Evaluates [.int 5] .null := by
  refine ⟨⟨rfl, ?_⟩, ⟨rfl, ?_⟩, rfl, ?_⟩
  · intro evaluated
    cases evaluated
  · intro evaluated
    have two : Value.int 1 = .int 2 := evaluated
    cases two
  · rintro (⟨few, -⟩ | ⟨-, numbers, x, -, number, -⟩)
    · exact absurd few (by decide)
    · cases number

end Rollup
