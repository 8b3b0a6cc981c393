import Mathlib.Algebra.BigOperators.Group.List.Basic
import Mathlib.Algebra.Order.Ring.Rat
import Rollup.Proofs.Naming
import Rollup.Proofs.Results

/-!
# Values of a pushed query

A query computes each aggregation over the rows of a group, and each post-aggregation from two
aggregations that it names. Without scripts, the value found under the name to which an output is
bound is the value that the host asked for: the aggregate of the column that it is taken of.
-/

namespace Rollup

/-- A row of the store: the value of each column, by the name of the column. -/
abbrev StoreRow (α : Type) := String → α

/-- Result of an aggregator over the values of its column. -/
def NativeFunction.value? (values : List ℚ) : NativeFunction → Option ℚ
  | longSum | doubleSum => some values.sum
  | longMin | doubleMin => values.min?
  | longMax | doubleMax => values.max?
  | count => some values.length

/-- Result of an aggregation over the rows of a group. Approximate and scripted aggregations have
no exact result. -/
def Aggregation.value? (rows : List (StoreRow ℚ)) : Aggregation → Option ℚ
  | native .count _ _ => some rows.length
  | native function _ (some field) => function.value? (rows.map fun row => row field)
  | native _ _ none | cardinality _ _ | hyperUnique _ _ | script _ _ => none

/-- Result of a post-aggregation, given the results that it names. -/
def PostAggregation.value? (named? : String → Option ℚ) (post : PostAggregation) : Option ℚ :=
  match post.op, post.fields with
  | .div, [numerator, denominator] =>
    (named? numerator).bind fun x => (named? denominator).bind fun y =>
      if y = 0 then none else some (x / y)
  | _, _ => none

namespace Query

/-- Result of the aggregation of a name. -/
def aggregated? (q : Query) (rows : List (StoreRow ℚ)) (name : String) : Option ℚ :=
  (q.aggregation? name).bind (Aggregation.value? rows)

/-- The value that a query stores under a name for a group of rows. -/
def value? (q : Query) (rows : List (StoreRow ℚ)) (name : String) : Option ℚ :=
  (q.aggregated? rows name).or <|
    (q.postAggregations.find? fun post => post.name = name).bind
      (PostAggregation.value? (q.aggregated? rows))

end Query

/-- The value of an aggregate over the values that it is taken of. -/
def AggregateFunction.Yields (values : List ℚ) (v : ℚ) : AggregateFunction → Prop
  | sum => v = values.sum
  | min => v ∈ values ∧ ∀ w ∈ values, v ≤ w
  | max => v ∈ values ∧ ∀ w ∈ values, w ≤ v
  | avg => v = values.sum / values.length
  | count => v = values.length
  | approxCountDistinct | first | last | stddevSamp | varSamp => False

/-- The aggregates that the store computes exactly. -/
def AggregateFunction.isExact (func : AggregateFunction) : Bool :=
  func ∈ [sum, min, max, avg, count]

/-- The values that an aggregate is taken of: those of the store column that its argument is, or
one for each row where it counts rows. -/
inductive Scope.Takes (s : Scope) (r : Relation) (rows : List (StoreRow ℚ))
    (call : AggregateCall) : List ℚ → Prop
  | column {arg : Expr} {attr : Attribute} {column : Column} (single : call.args = [arg])
      (bare : s.resolve arg = .column attr) (found : r.column? attr.name = some column) :
      Takes s r rows call (rows.map fun row => row column.name)
  | rows (counts : call.func = .count) (all : s.countsRows call = true) :
      Takes s r rows call (rows.map fun _ => 1)

/-- Where a metric holds the number of rows, every row counts as one. -/
def Relation.CountsOnce (r : Relation) (rows : List (StoreRow ℚ)) : Prop :=
  ∀ metric, r.rowCount? = some metric → ∀ row ∈ rows, row metric.name = 1

/-- As many values are taken as there are rows. -/
theorem Scope.Takes.length_eq {s : Scope} {r : Relation} {rows : List (StoreRow ℚ)}
    {call : AggregateCall} {values : List ℚ} (taken : s.Takes r rows call values) :
    values.length = rows.length := by
  cases taken with
  | column => exact List.length_map _
  | rows => exact List.length_map _

/-- An aggregator for an aggregate computes its value. -/
theorem Scope.value_of_nativeFunction? {func : AggregateFunction} {type : DataType}
    {function : NativeFunction} (found : nativeFunction? func type = some function)
    {values : List ℚ} (nonempty : values ≠ []) :
    function ≠ .count ∧ ∃ v, function.value? values = some v ∧ func.Yields values v := by
  obtain ⟨least, isLeast⟩ := Option.isSome_iff_exists.1 (List.isSome_min?_of_ne_nil nonempty)
  obtain ⟨greatest, isGreatest⟩ :=
    Option.isSome_iff_exists.1 (List.isSome_max?_of_ne_nil nonempty)
  unfold nativeFunction? at found
  split at found <;> cases found
  · exact ⟨NativeFunction.noConfusion, values.sum, rfl, rfl⟩
  · exact ⟨NativeFunction.noConfusion, values.sum, rfl, rfl⟩
  · exact ⟨NativeFunction.noConfusion, least, isLeast, List.min?_eq_some_iff.1 isLeast⟩
  · exact ⟨NativeFunction.noConfusion, least, isLeast, List.min?_eq_some_iff.1 isLeast⟩
  · exact ⟨NativeFunction.noConfusion, greatest, isGreatest, List.max?_eq_some_iff.1 isGreatest⟩
  · exact ⟨NativeFunction.noConfusion, greatest, isGreatest, List.max?_eq_some_iff.1 isGreatest⟩

/-- An aggregator over a column has the values of the column. -/
theorem Aggregation.value?_native {function : NativeFunction} (measures : function ≠ .count)
    (rows : List (StoreRow ℚ)) (name field : String) :
    (native function name (some field)).value? rows =
      function.value? (rows.map fun row => row field) := by
  cases function with
  | count => contradiction
  | longSum | doubleSum | longMin | doubleMin | longMax | doubleMax => rfl

/-- A row count is the number of rows. -/
theorem Scope.value?_rowCount {r : Relation} {rows : List (StoreRow ℚ)} (once : r.CountsOnce rows)
    (name : String) : (rowCount r name).value? rows = some (rows.length : ℚ) := by
  unfold rowCount
  split
  · rename_i metric found
    have ones : (rows.map fun row => row metric.name) = List.replicate rows.length 1 :=
      List.map_eq_replicate_iff.2 (once metric found)
    show some (rows.map fun row => row metric.name).sum = _
    rw [ones, List.sum_replicate, nsmul_one]
  · rfl

namespace Query.WellNamed

variable {q : Query} {rows : List (StoreRow ℚ)}

/-- An aggregation is found by its name. -/
theorem aggregation?_eq (well : q.WellNamed) {a : Aggregation} (held : a ∈ q.aggregations) :
    q.aggregation? a.name = some a := by
  have distinct := (List.nodup_append.1 well.distinct).1
  exact find?_eq_of_nodup Aggregation.name (List.nodup_append.1 distinct).2.1 held

/-- The value of an aggregation is stored under its name. -/
theorem value?_aggregation (well : q.WellNamed) {a : Aggregation} (held : a ∈ q.aggregations)
    {v : ℚ} (computed : a.value? rows = some v) : q.value? rows a.name = some v := by
  rw [value?, aggregated?, well.aggregation?_eq held, Option.bind_some, computed, Option.some_or]

/-- The quotient of two aggregations is stored under the name of the post-aggregation. -/
theorem value?_division (well : q.WellNamed) {a b : Aggregation} (numerator : a ∈ q.aggregations)
    (denominator : b ∈ q.aggregations) {name : String}
    (held : .division name a.name b.name ∈ q.postAggregations) {x y : ℚ}
    (dividend : a.value? rows = some x) (divisor : b.value? rows = some y) (nonzero : y ≠ 0) :
    q.value? rows name = some (x / y) := by
  have distinct := well.distinct
  rw [resultNames, List.nodup_append] at distinct
  have found : (q.postAggregations.find? fun post => post.name = name) =
      some (.division name a.name b.name) :=
    find?_eq_of_nodup PostAggregation.name distinct.2.1 held
  -- the name belongs to the quotient, so no aggregation has it
  have absent : q.aggregation? name = none := by
    refine List.find?_eq_none.2 fun other listed => ?_
    have apart : other.name ≠ name := distinct.2.2 other.name
      (List.mem_append_right _ (List.mem_map_of_mem listed)) name
      (List.mem_map.2 ⟨_, held, rfl⟩)
    simpa using apart
  have left : q.aggregated? rows a.name = some x := by
    rw [aggregated?, well.aggregation?_eq numerator, Option.bind_some, dividend]
  have right : q.aggregated? rows b.name = some y := by
    rw [aggregated?, well.aggregation?_eq denominator, Option.bind_some, divisor]
  rw [value?, aggregated?, absent, Option.bind_none, Option.none_or, found, Option.bind_some]
  simp only [PostAggregation.value?, PostAggregation.division, left, right, Option.bind_some,
    if_neg nonzero]

end Query.WellNamed

namespace Expr

/-- Replacing columns leaves an aggregate an aggregate. -/
theorem stripAlias_mapColumns {e : Expr} {head : AggregateHead} {args : List Expr}
    (named : e.stripAlias = .aggregate head args) (f : Attribute → Option Expr) :
    (e.mapColumns f).stripAlias = .aggregate head (args.map (mapColumns f)) := by
  fun_induction stripAlias e with
  | case1 inner name id ih =>
    rw [mapColumns, stripAlias]
    exact ih named
  | case2 e other =>
    rw [named, mapColumns, mapColumnsOf_eq_map, stripAlias]
    exact fun _ _ _ same => Expr.noConfusion same

/-- An aggregate is not the null constant. -/
theorem isNullLiteral_of_aggregate {e : Expr} {head : AggregateHead} {args : List Expr}
    (named : e.stripAlias = .aggregate head args) : e.isNullLiteral = false := by
  cases e with
  | aliased | aggregate => rfl
  | column | literal | cast | scalar | binary => cases named

end Expr

namespace Scope

variable {s : Scope}

/-- Without scripts, nothing is compiled. -/
theorem compile?_eq_none (noScripts : s.scripts = .none) (q : Query) (e : Expr)
    (kind : ScriptScope) : s.compile? q e kind = none := by
  unfold compile?
  split
  · rw [noScripts]
    rfl
  · rfl

/-- The column that an exact aggregate over one argument is computed of is the one that it is taken
of. -/
theorem Takes.eq_of_argumentColumn? {q : Query} {rows : List (StoreRow ℚ)} {call : AggregateCall}
    {values : List ℚ} (taken : s.Takes q.relation rows call values)
    (measures : call.func ≠ .count) {column : Column}
    (argument : s.argumentColumn? q call = some column) :
    values = rows.map fun row => row column.name := by
  cases taken with
  | column single bare found =>
    rw [argumentColumn?, AggregateCall.singleArg?, single, Option.bind_some, column?, bare]
      at argument
    cases found.symm.trans argument
    rfl
  | rows counts => contradiction

section Recorded

variable {q last : Query} {call : AggregateCall} {entry : String × ResultColumn}
  {rows : List (StoreRow ℚ)}

/-- An aggregate computed by one aggregation has its value under the name that is recorded. -/
theorem value?_of_addCall {aggregation : String → Aggregation} {storeType : StoreType}
    (onward : (addCall q call aggregation storeType).Extends last) (well : last.WellNamed)
    (added : (addCall q call aggregation storeType).results.entries = q.results.entries ++ [entry])
    (takes : TakesName aggregation) {v : ℚ}
    (computed : ∀ name, (aggregation name).value? rows = some v) :
    last.value? rows entry.1 = some v := by
  rw [results_addCall, List.append_cancel_left_eq, List.singleton_inj] at added
  have held : aggregation q.freshAlias.1 ∈ last.aggregations :=
    onward.aggregations.subset (List.mem_append_right _ List.mem_cons_self)
  have stored := well.value?_aggregation held (computed _)
  rw [takes] at stored
  rw [← added]
  exact stored

/-- An average has the quotient of its sum and its count under the name that is recorded. -/
theorem value?_of_addAverage {sum count : String → Aggregation}
    (onward : (addAverage q call sum count).Extends last) (well : last.WellNamed)
    (added : (addAverage q call sum count).results.entries = q.results.entries ++ [entry])
    (takesSum : TakesName sum) (takesCount : TakesName count) {x y : ℚ}
    (summed : ∀ name, (sum name).value? rows = some x)
    (counted : ∀ name, (count name).value? rows = some y) (nonzero : y ≠ 0) :
    last.value? rows entry.1 = some (x / y) := by
  obtain ⟨sumName, countName, name, aggregations, posts, results⟩ :=
    addAverage_eq q call sum count
  rw [results, List.append_cancel_left_eq, List.singleton_inj] at added
  have both : ∀ a ∈ [sum sumName, count countName], a ∈ last.aggregations := fun a listed =>
    onward.aggregations.subset (aggregations ▸ List.mem_append_right _ listed)
  have divided : .division name (sum sumName).name (count countName).name ∈
      last.postAggregations := by
    rw [takesSum, takesCount]
    exact onward.postAggregations.subset (posts ▸ List.mem_append_right _ List.mem_cons_self)
  rw [← added]
  exact well.value?_division (both _ List.mem_cons_self)
    (both _ (List.mem_cons_of_mem _ List.mem_cons_self)) divided (summed sumName)
    (counted countName) nonzero

/-- The step of an exact aggregate stores its value under the name that it records, in every query
that goes on from it. -/
theorem ComputedBy.value {q' : Query} (computed : s.ComputedBy q call q')
    (noScripts : s.scripts = .none) (onward : q'.Extends last) (well : last.WellNamed)
    (added : q'.results.entries = q.results.entries ++ [entry]) (nonempty : rows ≠ [])
    (once : q.relation.CountsOnce rows) (plain : call.distinct = false)
    (exact : call.func.isExact = true) {values : List ℚ}
    (taken : s.Takes q.relation rows call values) :
    ∃ v, last.value? rows entry.1 = some v ∧ call.func.Yields values v := by
  have length : values.length = rows.length := taken.length_eq
  have someValues : values ≠ [] := by
    rw [← List.length_pos_iff, length]
    exact List.length_pos_iff.2 nonempty
  cases computed with
  | rowCount counts =>
    refine ⟨rows.length, ?_, ?_⟩
    · exact value?_of_addCall onward well added (takesName_rowCount _) (value?_rowCount once)
    · rw [counts, AggregateFunction.Yields, length]
  | distinctCount native counts =>
    -- an exact aggregate without `distinct` does not count distinct values
    unfold countsDistinct at counts
    split at counts <;> simp_all [AggregateFunction.isExact]
  | metric native plain argument isMetric numeric compatible found =>
    obtain ⟨measures, v, computed, yields⟩ := value_of_nativeFunction? found someValues
    have counts : call.func ≠ .count := by
      intro counts
      rw [counts] at found
      cases found
    rw [taken.eq_of_argumentColumn? counts argument] at computed yields ⊢
    refine ⟨v, ?_, yields⟩
    refine value?_of_addCall onward well added (fun _ => rfl) fun name => ?_
    rw [Aggregation.value?_native measures, computed]
  | average native plain averages argument isMetric numeric found =>
    obtain ⟨measures, v, computed, total⟩ := value_of_nativeFunction? found someValues
    have counts : call.func ≠ .count := by
      rw [averages]
      exact AggregateFunction.noConfusion
    have nonzero : (rows.length : ℚ) ≠ 0 := by
      exact_mod_cast (List.length_pos_iff.2 nonempty).ne'
    refine ⟨v / rows.length, ?_, ?_⟩
    · refine value?_of_addAverage onward well added (fun _ => rfl) (takesName_rowCount _)
        (fun name => ?_) (value?_rowCount once) nonzero
      rw [Aggregation.value?_native measures, ← taken.eq_of_argumentColumn? counts argument,
        computed]
    · rw [averages, AggregateFunction.Yields, length, show v = values.sum from total]
  | script compiled =>
    rw [compile?_eq_none noScripts] at compiled
    cases compiled
  | scriptAverage needed compiled =>
    rw [compile?_eq_none noScripts] at compiled
    cases compiled

end Recorded

/-- Without scripts, the store does not group by an aggregate. -/
theorem GroupedBy.not_aggregate {q q' : Query} {group expanded : Expr}
    (grouped : s.GroupedBy q group expanded q') (noScripts : s.scripts = .none)
    {head : AggregateHead} {args args' : List Expr}
    (named : group.stripAlias = .aggregate head args)
    (stands : expanded.stripAlias = .aggregate head args') : False := by
  have renamed := Expr.stripAlias_mapColumns stands s.storeColumn?
  cases grouped with
  | direct bare =>
    rw [withStoreNames, renamed] at bare
    cases bare
  | formatted found =>
    rw [withStoreNames, renamed] at found
    cases found
  | part found =>
    rw [TimeExtraction.ofPart?, withStoreNames, Expr.stripAlias_mapColumns named] at found
    cases found
  | script compiled =>
    rw [compile?_eq_none noScripts] at compiled
    cases compiled

end Scope

namespace GroupingSet

/-- Each grouping expression of a set is paired with itself, or with what it stands for in a row of
the expansion. -/
theorem exists_stands {input : Plan} {groupBy outputs : List Expr} {set : GroupingSet}
    (member : set ∈ input.groupingSets groupBy outputs) :
    ∃ stands : Expr → Expr, (stands = id ∨ ∃ x : ExpansionRow, stands = x.resolve) ∧
      set.groupBy.zip set.expanded = set.groupBy.map fun g => (g, stands g) := by
  unfold Plan.groupingSets decompose at member
  split at member
  · obtain ⟨x, -, rfl⟩ := List.mem_map.1 member
    exact ⟨x.resolve, Or.inr ⟨x, rfl⟩, zip_map_self groupBy x.resolve⟩
  · rw [List.mem_singleton.1 member]
    have same := zip_map_self groupBy id
    rw [List.map_id] at same
    exact ⟨id, Or.inl rfl, same⟩

/-- A grouping expression that names an aggregate is a dimension of every grouping set. -/
theorem exists_dimension_of_aggregate {input : Plan} {groupBy outputs : List Expr}
    {set : GroupingSet} (member : set ∈ input.groupingSets groupBy outputs) {g : Expr}
    (given : g ∈ set.groupBy) {head : AggregateHead} {args : List Expr}
    (named : g.stripAlias = .aggregate head args) :
    ∃ expanded args', (g, expanded) ∈ set.dimensions ∧
      expanded.stripAlias = .aggregate head args' := by
  obtain ⟨stands, which, paired⟩ := exists_stands member
  have stripped : ∃ args', (stands g).stripAlias = .aggregate head args' := by
    rcases which with rfl | ⟨x, rfl⟩
    · exact ⟨args, named⟩
    · exact ⟨_, Expr.stripAlias_mapColumns named _⟩
  obtain ⟨args', stripped⟩ := stripped
  refine ⟨stands g, args', List.mem_filter.2 ⟨?_, ?_⟩, stripped⟩
  · rw [paired]
    exact List.mem_map.2 ⟨g, given, rfl⟩
  · rw [isMarker, named, Expr.isNullLiteral_of_aggregate stripped]
    rfl

end GroupingSet

/-- An expression built like an aggregate is an aggregate. -/
theorem Expr.exists_aggregate_of_same {e : Expr} {call : AggregateCall}
    (alike : e.same call.toExpr = true) : ∃ head args, e = .aggregate head args := by
  cases same_iff_alike.1 alike with
  | aggregate => exact ⟨_, _, rfl⟩

namespace Rule.Lowers

variable {rule : Rule} {source : Source} {set : GroupingSet} {pushed : PushedSet}

/-- Without scripts, an output that names an aggregate does not repeat a grouping expression of a
lowered set. -/
theorem isGroupReference_eq_false (lowers : rule.Lowers source set pushed)
    (noScripts : rule.scripts = .none) {input : Plan} {groupBy outputs : List Expr}
    (member : set ∈ input.groupingSets groupBy outputs) {output : Expr} {call : AggregateCall}
    (names : output.stripAlias = call.toExpr) : set.isGroupReference output = false := by
  refine Bool.eq_false_iff.2 fun repeats => ?_
  rw [GroupingSet.isGroupReference, names] at repeats
  obtain ⟨g, given, alike⟩ := List.any_eq_true.1 repeats
  obtain ⟨head, args, named⟩ := Expr.exists_aggregate_of_same alike
  obtain ⟨expanded, args', candidate, stands⟩ :=
    GroupingSet.exists_dimension_of_aggregate member given named
  obtain ⟨q, q', -, grouped⟩ := lowers.exists_groupedBy candidate
  exact grouped.not_aggregate noScripts named stands

/-- The result column of an aggregate was recorded by the step of that aggregate. -/
theorem origin_of_call (lowers : rule.Lowers source set pushed)
    (start : source.query.results.entries = []) (apart : IdsApart set.groupBy set.aggregates)
    {call : AggregateCall} (asked : call ∈ set.calls) {entry : String × ResultColumn}
    (held : entry ∈ pushed.query.results.entries) (expr : entry.2.expr = call.toExpr) :
    ∃ q q', source.query.Extends q ∧ (rule.scope source set).ComputedBy q call q' ∧
      q'.results.entries = q.results.entries ++ [entry] ∧ q'.Extends pushed.query := by
  rcases lowers.origin start held with ⟨pair, candidate, group, -⟩ |
    ⟨call', asked', same, q, q', reached, computed, added, onward⟩
  · obtain ⟨e, given, inside⟩ := GroupingSet.mem_calls_of_mem asked
    have listed : pair.1 ∈ set.groupBy := (List.of_mem_zip (List.mem_filter.1 candidate).1).1
    refine absurd ?_ (apart pair.1 listed e given call inside)
    rw [← group, expr, AggregateCall.outputId?_toExpr]
  · rw [← AggregateCall.toExpr_injective (same.symm.trans expr)]
    exact ⟨q, q', reached, computed, added, onward⟩

end Rule.Lowers

/-- Pushed values are right: without scripts, every output that names an exact aggregate of a store
column, or a count of rows, and that the host does not fill in, is bound to a name under which the
query of each grouping set stores the value of that aggregate over every group of rows. -/
theorem value_of_pushAggregate? {catalog : Catalog} {settings : Settings} {input : Plan}
    {groupBy outputs : List Expr} {p : PushedAggregate}
    (pushed : pushAggregate? catalog .none settings (.aggregate input groupBy outputs) = some p)
    (consistent : ConsistentIds outputs) (apart : IdsApart groupBy outputs) :
    ∃ source, Source.ofPlan? catalog input.sourcePlan = some source ∧
      List.Forall₂ (fun set pushedSet =>
        ∀ rows : List (StoreRow ℚ), rows ≠ [] → source.query.relation.CountsOnce rows →
        ∀ output ∈ outputs, ∀ call : AggregateCall, output.stripAlias = call.toExpr →
        call.distinct = false → call.func.isExact = true →
        output.outputId?.bind set.overrides.get? = none →
        ∀ values, ((Rule.ofCatalog catalog .none settings).scope source set).Takes
          source.query.relation rows call values →
        ∃ name storeType hostType v,
          pushedSet.binding output = .column name storeType hostType ∧
          pushedSet.query.value? rows name = some v ∧ call.func.Yields values v)
        (input.groupingSets groupBy outputs) p.sets := by
  obtain ⟨source, known, -, lowered⟩ := Rule.exists_source_of_push? pushed
  obtain ⟨r, empty⟩ := Source.query_eq_of_ofPlan? known
  refine ⟨source, known, ?_⟩
  refine ((List.forall₂_and_left _ _).2 ⟨fun set member => member, lowered⟩).imp ?_
  rintro set pushedSet ⟨member, lowers⟩ rows nonempty once output given call names plain exact
    asked values taken
  obtain ⟨sameGroups, sameOutputs, -⟩ := Plan.mem_groupingSets member
  have well : pushedSet.query.WellNamed := lowers.wellNamed (empty ▸ Query.wellNamed_empty r)
  have noScripts : ((Rule.ofCatalog catalog .none settings).scope source set).scripts = .none := rfl
  rw [← lowers.overrides] at asked
  -- the binding leads to a result column, the column to its step, and the step to the value
  obtain ⟨computed, column, held, expr, bound⟩ :=
    lowers.binding_of_names member (by rw [empty]; rfl) consistent apart given names
      (lowers.isGroupReference_eq_false noScripts member names) asked
  obtain ⟨⟨name, _⟩, entry, rfl⟩ := List.mem_map.1 held
  obtain ⟨q, q', reached, step, added, onward⟩ :=
    lowers.origin_of_call (by rw [empty]; rfl) (by rw [sameGroups, sameOutputs]; exact apart)
      computed entry expr
  rw [← reached.relation] at once taken
  obtain ⟨v, stored, yields⟩ :=
    step.value noScripts onward well added nonempty once plain exact taken
  rw [← (well.stored _ entry).1] at stored
  exact ⟨_, _, _, v, bound, stored, yields⟩

namespace Sales

/-- A sale at a price. -/
def soldAt (price : ℚ) : StoreRow ℚ := fun column => if column = "price" then price else 1

/-- Every row of sales counts once. -/
theorem countsOnce (prices : List ℚ) : relation.CountsOnce (prices.map soldAt) := by
  intro metric found row listed
  cases (found : some _ = some metric)
  obtain ⟨price, -, rfl⟩ := List.mem_map.1 listed
  rfl

/-- In every grouping set of the rollup, the average is left to the store, and the price is that of
the store. -/
theorem asked_and_bare : ∀ set ∈ (Plan.expand scan projections output).groupingSets groupBy outputs,
    mean.outputId?.bind set.overrides.get? = none ∧
      ((Rule.ofCatalog catalog .none .allEnabled).scope { query := { relation } } set).resolve
        (.column price) = .column price := by
  intro set member
  obtain ⟨x, listed, rfl⟩ := List.mem_map.1 member
  obtain ⟨cells, given, rfl⟩ := List.mem_map.1 listed
  simp only [projections, List.mem_cons, List.not_mem_nil, or_false] at given
  rcases given with rfl | rfl | rfl
  · exact ⟨rfl, rfl⟩
  · exact ⟨rfl, rfl⟩
  · exact ⟨rfl, rfl⟩

end Sales

/-- Over two sales at 3 and at 5, every query of a rollup stores the average 4. -/
theorem value_rollup :
    ∃ p, pushAggregate? Sales.catalog .none .allEnabled Sales.rollup = some p ∧
    p.sets.length = 3 ∧ ∀ set ∈ p.sets, ∃ name storeType hostType,
      set.binding Sales.mean = .column name storeType hostType ∧
      set.query.value? ([3, 5].map Sales.soldAt) name = some 4 := by
  obtain ⟨p, pushed, sets⟩ := Sales.exists_pushed
  obtain ⟨source, known, values⟩ := value_of_pushAggregate? pushed
    (consistentIds_of_nodup (by decide)) (by decide)
  cases (known : some { query := { relation := Sales.relation } } = some source)
  refine ⟨p, pushed, sets, fun set given => ?_⟩
  obtain ⟨groupingSet, member, value⟩ := Run.exists_item values given
  obtain ⟨asked, bare⟩ := Sales.asked_and_bare groupingSet member
  obtain ⟨name, storeType, hostType, v, bound, stored, yields⟩ :=
    value ([3, 5].map Sales.soldAt) (List.cons_ne_nil _ _) (Sales.countsOnce [3, 5]) Sales.mean
      (by simp [Sales.outputs]) Sales.average rfl rfl rfl asked _ (.column rfl bare rfl)
  refine ⟨name, storeType, hostType, bound, ?_⟩
  rw [stored, show v = _ from yields]
  decide +kernel

end Rollup
