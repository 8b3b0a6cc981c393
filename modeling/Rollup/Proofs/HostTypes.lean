import Rollup.Proofs.Results

/-!
# Types of bindings

The host reads every output of a pushed grouping set from where it is bound, so what it finds there
must have the type of the output. Result columns have the type of the expression that they stand
for, and nulls the type of the output for which they are filled in; a binding is found by identity
or by equality of expressions. Where one identity has one type, every route to a binding agrees with
the output. Only the number of a grouping set is copied from the row as it is, with the type that it
has there.
-/

namespace Rollup

namespace Expr

mutual

/-- The expression and all expressions inside it, from the outside in. -/
def subexprs : Expr → List Expr
  | column attr => [column attr]
  | literal value type => [literal value type]
  | aliased inner name id => aliased inner name id :: inner.subexprs
  | cast inner type => cast inner type :: inner.subexprs
  | scalar func args => scalar func args :: subexprsOf args
  | binary op left right => binary op left right :: (left.subexprs ++ right.subexprs)
  | aggregate head args => aggregate head args :: subexprsOf args

/-- The expressions of a list and all expressions inside them. -/
def subexprsOf : List Expr → List Expr
  | [] => []
  | e :: es => e.subexprs ++ subexprsOf es

end

/-- The expressions inside those of a list, in order. -/
@[simp] theorem subexprsOf_eq_flatMap (es : List Expr) :
    subexprsOf es = es.flatMap subexprs := by
  induction es with
  | nil => simp [subexprsOf]
  | cons e es ih => simp [subexprsOf, ih]

/-- Inside an expression are the expression and what is inside its direct subexpressions. -/
theorem subexprs_eq (e : Expr) : e.subexprs = e :: e.children.flatMap subexprs := by
  cases e with
  | column | literal => rw [subexprs]; rfl
  | aliased | cast | binary => simp [subexprs, children]
  | scalar | aggregate => rw [subexprs, subexprsOf_eq_flatMap]; rfl

/-- An expression is inside itself. -/
theorem mem_subexprs_self (e : Expr) : e ∈ e.subexprs := by
  rw [subexprs_eq]
  exact List.mem_cons_self

/-- What is inside a direct subexpression is inside the expression. -/
theorem subexprs_subset_of_child {e c : Expr} (child : c ∈ e.children) :
    c.subexprs ⊆ e.subexprs := by
  intro d inside
  rw [subexprs_eq]
  exact List.mem_cons_of_mem e (List.mem_flatMap.2 ⟨c, child, inside⟩)

/-- What an output names is inside it. -/
theorem stripAlias_mem_subexprs (e : Expr) : e.stripAlias ∈ e.subexprs := by
  fun_induction stripAlias e with
  | case1 inner name id ih =>
    exact subexprs_subset_of_child (e := .aliased inner name id) List.mem_cons_self ih
  | case2 e other => exact mem_subexprs_self e

/-- The aggregates of an expression are inside it. -/
theorem toExpr_mem_subexprs {e : Expr} {call : AggregateCall} (inside : call ∈ e.calls) :
    call.toExpr ∈ e.subexprs := by
  induction e using induct with
  | step e ih =>
    rcases exists_child_of_mem_calls inside with rfl | ⟨c, child, deeper⟩
    · exact mem_subexprs_self _
    · exact subexprs_subset_of_child child (ih c child deeper)

/-- Expressions that are built alike have the same type. -/
theorem Alike.dataType_eq {d e : Expr} (alike : Alike d e) : d.dataType = e.dataType := by
  induction alike with
  | column | literal => rfl
  | aliased name id _ ih => rw [dataType, dataType, ih]
  | cast | aggregate => rw [dataType, dataType]
  | @scalar ds es func length _ ih =>
    have types : ds.map dataType = es.map dataType :=
      List.ext_getElem (by simpa using length) (by simpa using ih)
    rw [dataType, dataType, dataTypes_eq_map, dataTypes_eq_map, types]
  | binary op _ _ first second => rw [dataType, dataType, first, second]

end Expr

/-- Inside the expressions of a list, one identity has one type. -/
def OneTypePerId (es : List Expr) : Prop :=
  ∀ d ∈ Expr.subexprsOf es, ∀ e ∈ Expr.subexprsOf es,
    d.outputId? ≠ none → e.outputId? = d.outputId? → e.dataType = d.dataType

instance (es : List Expr) : Decidable (OneTypePerId es) :=
  inferInstanceAs (Decidable (∀ d ∈ Expr.subexprsOf es, ∀ e ∈ Expr.subexprsOf es,
    d.outputId? ≠ none → e.outputId? = d.outputId? → e.dataType = d.dataType))

/-- Expressions inside a list that share an identity share their type. -/
theorem OneTypePerId.dataType_eq {es : List Expr} (typed : OneTypePerId es) {d e c f : Expr}
    (given : c ∈ es) (inside : d ∈ c.subexprs) (given' : f ∈ es) (inside' : e ∈ f.subexprs)
    {id : ExprId} (named : d.outputId? = some id) (named' : e.outputId? = some id) :
    e.dataType = d.dataType := by
  refine typed d ?_ e ?_ (named ▸ Option.some_ne_none id) (named'.trans named.symm)
  · rw [Expr.subexprsOf_eq_flatMap]
    exact List.mem_flatMap.2 ⟨c, given, inside⟩
  · rw [Expr.subexprsOf_eq_flatMap]
    exact List.mem_flatMap.2 ⟨f, given', inside'⟩

/-- What is found at a binding has a type. A binding to nothing has every type. -/
def Binding.HasType (type : DataType) : Binding → Prop
  | literal value => value.dataType = type
  | column _ _ hostType => hostType = type
  | unbound => True

namespace ExpansionRow

variable {x : ExpansionRow} {groupBy outputs : List Expr}

/-- For each output that is computed from a marker alone, a constant at the place that is recorded
for the output has the type of the output. -/
def TypesMarkers (x : ExpansionRow) (outputs : List Expr) : Prop :=
  ∀ e ∈ outputs, ∀ id, e.outputId? = some id →
    ∀ attr, e.soleColumn? = some attr → attr.isGroupingId = true →
      ∀ value type, x.valueAt? (x.positions outputs) id = some (.literal value type) →
        type = e.dataType

/-- A constant that is filled in for an output has its type. -/
theorem dataType_of_get?_overrides (typed : OneTypePerId (groupBy ++ outputs))
    (markers : x.TypesMarkers outputs) {output : Expr} (given : output ∈ outputs) {id : ExprId}
    (named : output.outputId? = some id) {constant : Expr}
    (filled : (x.overrides outputs).get? id = some constant) :
    constant.dataType = output.dataType := by
  have listed {e : Expr} (held : e ∈ outputs) : e ∈ groupBy ++ outputs :=
    List.mem_append_right _ held
  obtain ⟨e, given', listed'⟩ := List.mem_flatMap.1 (Table.mem_of_get?_ofList filled)
  rcases mem_outputOverrides listed' with ⟨named', found⟩ | ⟨call, inside, rfl, -, found⟩
  · have same : e.dataType = output.dataType :=
      typed.dataType_eq (listed given) output.mem_subexprs_self (listed given')
        e.mem_subexprs_self named named'
    rcases Expr.cases_of_override? found with
      rfl | ⟨attr, value, type, sole, marks, cell, rfl⟩
    · rw [Expr.null, Expr.dataType, same]
    · rw [Expr.dataType, markers e given' id named' attr sole marks value type cell, same]
  · obtain ⟨-, -, rfl⟩ := Expr.eq_null_of_nullOverride? found
    rw [Expr.null, Expr.dataType]
    exact typed.dataType_eq (listed given) output.mem_subexprs_self (listed given')
      (Expr.toExpr_mem_subexprs inside) named call.outputId?_toExpr

end ExpansionRow

namespace Rule.Lowers

variable {rule : Rule} {source : Source} {set : GroupingSet} {pushed : PushedSet}

/-- A result column stands for something inside the grouping expressions or the outputs, and it has
the type of what it stands for. -/
theorem hostType_eq (lowers : rule.Lowers source set pushed)
    (start : source.query.results.entries = []) {r : ResultColumn}
    (held : r ∈ pushed.query.results.values) :
    r.hostType = r.expr.dataType ∧
      ∃ e ∈ set.groupBy ++ set.aggregates, r.expr ∈ e.subexprs := by
  constructor
  · have typed : ∀ entry ∈ pushed.query.results.entries,
        entry.2.hostType = entry.2.expr.dataType := by
      refine lowers.keeps (P := fun q => ∀ entry ∈ q.results.entries,
        entry.2.hostType = entry.2.expr.dataType) ?_ ?_ ?_
      · rw [start]
        exact List.forall_mem_nil _
      · intro pair _ q q' before grouped
        obtain ⟨_, _, _, -, -, -, -, -, results⟩ := grouped.grown
        rw [results]
        exact List.forall_mem_append.2 ⟨before, List.forall_mem_singleton.2 rfl⟩
      · intro call _ q q' before computed
        obtain ⟨_, _, _, _, -, -, -, -, -, results⟩ := computed.grown
        rw [results]
        exact List.forall_mem_append.2 ⟨before, List.forall_mem_singleton.2 rfl⟩
    obtain ⟨entry, listed, rfl⟩ := List.mem_map.1 held
    exact typed entry listed
  · have exprs := lowers.exprs
    rw [Table.values, Table.values, start, List.map_nil, List.map_nil, List.nil_append] at exprs
    have either : r.expr ∈ set.dimensions.map Prod.fst ++ set.calls.map AggregateCall.toExpr := by
      rw [← exprs]
      exact List.mem_map_of_mem held
    rcases List.mem_append.1 either with group | computed
    · obtain ⟨pair, candidate, expr⟩ := List.mem_map.1 group
      have grouped : pair.1 ∈ set.groupBy := (List.of_mem_zip (List.mem_filter.1 candidate).1).1
      exact ⟨pair.1, List.mem_append_left _ grouped, expr ▸ pair.1.mem_subexprs_self⟩
    · obtain ⟨call, asked, expr⟩ := List.mem_map.1 computed
      obtain ⟨e, given, inside⟩ := GroupingSet.mem_calls_of_mem asked
      exact ⟨e, List.mem_append_right _ given, expr ▸ Expr.toExpr_mem_subexprs inside⟩

/-- The result column to which an output is bound has the type of the output. -/
theorem hostType_of_result? (lowers : rule.Lowers source set pushed)
    (start : source.query.results.entries = [])
    (typed : OneTypePerId (set.groupBy ++ set.aggregates)) {output : Expr}
    (given : output ∈ set.aggregates) {r : ResultColumn}
    (found : pushed.result? output = some r) : r.hostType = output.dataType := by
  -- a column that is found by the identity of something inside the output has its type
  have byId {e : Expr} (inside : e ∈ output.subexprs) {id : ExprId}
      (named : e.outputId? = some id) (found : pushed.query.resultFor? id = some r) :
      r.hostType = e.dataType := by
    obtain ⟨hostType, d, listed, held⟩ :=
      lowers.hostType_eq start (List.mem_of_find?_eq_some found)
    have identified : r.expr.outputId? = some id := by simpa using List.find?_some found
    rw [hostType]
    exact typed.dataType_eq (List.mem_append_right _ given) inside listed held named identified
  unfold PushedSet.result? at found
  rcases Option.or_eq_some_iff.1 found with direct | ⟨-, found⟩
  · rw [← output.dataType_stripAlias]
    split at direct
    · rename_i head args names
      exact byId output.stripAlias_mem_subexprs (by rw [names]; rfl) direct
    · rename_i attr names
      exact byId output.stripAlias_mem_subexprs (by rw [names]; rfl) direct
    · cases direct
  rcases Option.or_eq_some_iff.1 found with own | ⟨-, alike⟩
  · obtain ⟨id, named, own⟩ := Option.bind_eq_some_iff.1 own
    exact byId output.mem_subexprs_self named own
  · obtain ⟨hostType, -⟩ := lowers.hostType_eq start (List.mem_of_find?_eq_some alike)
    have same : r.expr.stripAlias.same output.stripAlias = true := by
      simpa using List.find?_some alike
    rw [hostType, ← r.expr.dataType_stripAlias, ← output.dataType_stripAlias]
    exact (Expr.same_iff_alike.1 same).dataType_eq

end Rule.Lowers

/-- Where one identity has one type, and a constant that the row has for the number of a grouping
set has the type of its output, every output of a pushed aggregate is bound to a constant or to a
result column of its own type, in every grouping set. -/
theorem hasType_of_pushAggregate? {catalog : Catalog} {scripts : ScriptCompiler}
    {settings : Settings} {input : Plan} {groupBy outputs : List Expr} {p : PushedAggregate}
    (pushed : pushAggregate? catalog scripts settings (.aggregate input groupBy outputs) = some p)
    (typed : OneTypePerId (groupBy ++ outputs))
    (markers : ∀ x, Expansion.ofPlan? input = some x → ∀ row ∈ x.rows, row.TypesMarkers outputs) :
    ∀ set ∈ p.sets, ∀ output ∈ outputs, (set.binding output).HasType output.dataType := by
  obtain ⟨source, known, -, lowered⟩ := Rule.exists_source_of_push? pushed
  obtain ⟨relation, empty⟩ := Source.query_eq_of_ofPlan? known
  intro pushedSet held output given
  obtain ⟨set, member, lowers⟩ := Run.exists_item lowered held
  obtain ⟨sameGroups, sameOutputs, -⟩ := Plan.mem_groupingSets member
  unfold PushedSet.binding
  split
  · rename_i constant filled
    obtain ⟨id, named, filled⟩ := Option.bind_eq_some_iff.1 filled
    rw [lowers.overrides] at filled
    unfold Plan.groupingSets GroupingSet.decompose at member
    split at member
    · rename_i x expanded
      obtain ⟨row, listed, rfl⟩ := List.mem_map.1 member
      exact row.dataType_of_get?_overrides typed (markers x expanded row listed) given named filled
    · rw [List.mem_singleton.1 member] at filled
      cases filled
  · cases found : pushedSet.result? output with
    | none => trivial
    | some r =>
      rw [← sameGroups, ← sameOutputs] at typed
      exact lowers.hostType_of_result? (by rw [empty]; rfl) typed (sameOutputs ▸ given) found

/-- In every row of the rollup of sales, the number of the grouping set has the type of its
column. -/
theorem Sales.typesMarkers : ∀ x, Expansion.ofPlan? (.expand scan projections output) = some x →
    ∀ row ∈ x.rows, row.TypesMarkers outputs := by
  rintro x expanded row listed e given id named attr sole marks value type cell
  cases expanded
  -- only the marker is computed from a marker
  have isMarker : e = .column marker := by
    simp only [outputs, groupBy, List.map_cons, List.map_nil, List.cons_append, List.nil_append,
      List.mem_cons, List.not_mem_nil, or_false] at given
    rcases given with rfl | rfl | rfl | rfl | rfl
    · cases sole
      cases marks
    · cases sole
      cases marks
    · rfl
    · cases sole
      cases marks
    · cases sole
  rw [isMarker] at named ⊢
  cases named
  simp only [Expansion.rows, projections, List.map_cons, List.map_nil, List.mem_cons,
    List.not_mem_nil, or_false] at listed
  rcases listed with rfl | rfl | rfl <;> cases cell <;> rfl

/-- In every query of a rollup, each output is bound to a constant or a result column of its
type. -/
theorem hasType_rollup :
    ∃ p, pushAggregate? Sales.catalog .none .allEnabled Sales.rollup = some p ∧
      p.sets.length = 3 ∧ OneTypePerId (Sales.groupBy ++ Sales.outputs) ∧
      ∀ set ∈ p.sets, ∀ output ∈ Sales.outputs,
        (set.binding output).HasType output.dataType := by
  obtain ⟨p, pushed, sets⟩ := Sales.exists_pushed
  have typed : OneTypePerId (Sales.groupBy ++ Sales.outputs) := by decide
  exact ⟨p, pushed, sets, typed, hasType_of_pushAggregate? pushed typed Sales.typesMarkers⟩

end Rollup
