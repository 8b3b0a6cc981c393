import Rollup.Proofs.Distinct
import Rollup.Proofs.Identity
import Rollup.Proofs.Lowered

/-!
# Results of a pushed query

The result columns of a pushed query stand for the dimensions of its grouping set and then for the
aggregates that the set requires, each once. An output that names an aggregate is bound to the
constant that the host fills in for it, or else to the result column of that very aggregate.
-/

namespace Rollup

namespace Expr

/-- An expression built like one without aggregates has none. -/
theorem Alike.calls_eq_nil {d e : Expr} (alike : Alike d e) (none : d.calls = []) :
    e.calls = [] := by
  induction alike with
  | column | literal => rfl
  | aliased name id _ ih | cast type _ ih =>
    rw [calls] at none ⊢
    exact ih none
  | scalar func length _ ih =>
    simp only [calls, callsOf_eq_flatMap, List.flatMap_eq_nil_iff] at none ⊢
    intro e held
    obtain ⟨i, inside, rfl⟩ := List.getElem_of_mem held
    exact ih i (length ▸ inside) inside (none _ (List.getElem_mem _))
  | binary op _ _ first second =>
    simp only [calls, List.append_eq_nil_iff] at none ⊢
    exact ⟨first none.1, second none.2⟩
  | aggregate => cases none

end Expr

namespace GroupingSet

/-- The aggregates that a set requires: those of the outputs, the first of each identity, where
the host fills in neither the output nor the aggregate. -/
def required (s : GroupingSet) : List AggregateCall :=
  distinctBy (fun call => call.id)
    ((s.aggregates.filter fun e => !e.outputId?.any s.isOverridden).flatMap fun e =>
      e.calls.filter fun call => !s.isOverridden call.id)

/-- An output that repeats a grouping expression has no aggregates if the grouping expressions
have none. -/
theorem calls_eq_nil_of_isGroupReference {s : GroupingSet}
    (pure : ∀ g ∈ s.groupBy, g.calls = []) {e : Expr} (repeats : s.isGroupReference e = true) :
    e.calls = [] := by
  rw [← Expr.calls_stripAlias]
  unfold isGroupReference at repeats
  split at repeats
  · rename_i attr named
    rw [named, Expr.calls]
  · obtain ⟨g, given, alike⟩ := List.any_eq_true.1 repeats
    refine (Expr.same_iff_alike.1 alike).calls_eq_nil ?_
    rw [Expr.calls_stripAlias]
    exact pure g given

/-- Outputs that repeat grouping expressions do not contribute aggregates. -/
theorem flatMap_isComputed {s : GroupingSet} (pure : ∀ g ∈ s.groupBy, g.calls = [])
    (keep : AggregateCall → Bool) (outputs : List Expr) :
    (outputs.filter s.isComputed).flatMap (fun e => e.calls.filter keep) =
      (outputs.filter fun e => !e.outputId?.any s.isOverridden).flatMap
        (fun e => e.calls.filter keep) := by
  induction outputs with
  | nil => rfl
  | cons e rest ih =>
    cases overridden : e.outputId?.any s.isOverridden with
    | true => simp only [List.filter_cons, isComputed, overridden, Bool.not_true, Bool.false_and,
        Bool.false_eq_true, ↓reduceIte, ih]
    | false =>
      cases repeats : s.isGroupReference e with
      | true =>
        have none : e.calls = [] := calls_eq_nil_of_isGroupReference pure repeats
        simp only [List.filter_cons, isComputed, overridden, repeats, Bool.not_false,
          Bool.not_true, Bool.and_false, Bool.false_eq_true, ↓reduceIte, List.flatMap_cons, none,
          List.filter_nil, List.nil_append, ih]
      | false => simp only [List.filter_cons, isComputed, overridden, repeats, Bool.not_false,
          Bool.and_self, ↓reduceIte, List.flatMap_cons, ih]

/-- The store computes the aggregates that a set requires, in their order. -/
theorem calls_eq_required {s : GroupingSet} (pure : ∀ g ∈ s.groupBy, g.calls = []) :
    s.calls = s.required := by
  have perOutput : ∀ e : Expr, e.aggregates.filter (fun call => !s.isOverridden call.id) =
      distinctBy (fun call => call.id) (e.calls.filter fun call => !s.isOverridden call.id) :=
    fun e => distinctBy.filter_keys (fun id => !s.isOverridden id) e.calls
  calc s.calls
      = distinctBy (fun call => call.id) ((s.aggregates.filter s.isComputed).flatMap fun e =>
          distinctBy (fun call => call.id)
            (e.calls.filter fun call => !s.isOverridden call.id)) := by
        simp only [calls, perOutput]
    _ = distinctBy (fun call => call.id) ((s.aggregates.filter s.isComputed).flatMap fun e =>
          e.calls.filter fun call => !s.isOverridden call.id) := distinctBy.flatMap _ _
    _ = s.required := by
        rw [flatMap_isComputed pure, required]

/-- A candidate for the aggregates that the store computes for a set is one of an output. -/
theorem exists_output_of_candidate {s : GroupingSet} {call : AggregateCall}
    (candidate : call ∈ (s.aggregates.filter s.isComputed).flatMap fun e =>
      e.aggregates.filter fun call => !s.isOverridden call.id) :
    ∃ e ∈ s.aggregates, call ∈ e.calls := by
  obtain ⟨e, given, kept⟩ := List.mem_flatMap.1 candidate
  exact ⟨e, (List.mem_filter.1 given).1, distinctBy.mem_of_mem (List.mem_filter.1 kept).1⟩

/-- An aggregate that the store computes for a set is one of an output. -/
theorem mem_calls_of_mem {s : GroupingSet} {call : AggregateCall} (asked : call ∈ s.calls) :
    ∃ e ∈ s.aggregates, call ∈ e.calls :=
  exists_output_of_candidate (distinctBy.mem_of_mem asked)

/-- An aggregate that an output names is computed by the store, unless the host fills it in or the
output repeats a grouping expression. -/
theorem mem_calls_of_names {s : GroupingSet} (consistent : ConsistentIds s.aggregates)
    {output : Expr} (given : output ∈ s.aggregates) {call : AggregateCall}
    (names : output.stripAlias = call.toExpr) (computed : s.isComputed output = true)
    (asked : s.isOverridden call.id = false) : call ∈ s.calls := by
  have inside : call ∈ output.calls := Expr.mem_calls_of_stripAlias names
  -- some aggregate of this identity is computed, and identities are consistent
  have known : call.id ∈ s.calls.map fun call => call.id := by
    rw [calls, distinctBy.mem_keys_iff]
    obtain ⟨call', kept, same⟩ :=
      List.mem_map.1 ((distinctBy.mem_keys_iff (fun call : AggregateCall => call.id) output.calls
        call.id).2 (List.mem_map.2 ⟨call, inside, rfl⟩))
    refine List.mem_map.2 ⟨call', List.mem_flatMap.2 ⟨output, ?_, ?_⟩, same⟩
    · exact List.mem_filter.2 ⟨given, computed⟩
    · refine List.mem_filter.2 ⟨kept, ?_⟩
      rw [same, asked]
      rfl
  obtain ⟨call', held, same⟩ := List.mem_map.1 known
  obtain ⟨e, given', inside'⟩ := mem_calls_of_mem held
  rw [← AggregateCall.toExpr_injective (consistent.toExpr_eq given given' inside inside' same)]
  exact held

/-- Where the host fills in an aggregate that an output names, it fills in the output. -/
theorem isOverridden_of_call {input : Plan} {groupBy outputs : List Expr} {s : GroupingSet}
    (given : s ∈ input.groupingSets groupBy outputs) (consistent : ConsistentIds outputs)
    {output : Expr} (listed : output ∈ outputs) {call : AggregateCall}
    (names : output.stripAlias = call.toExpr) {id : ExprId} (named : output.outputId? = some id)
    (filled : s.isOverridden call.id = true) : s.isOverridden id = true := by
  obtain ⟨-, -, nothing | ⟨x, settled⟩⟩ := Plan.mem_groupingSets given
  · rw [isOverridden, nothing] at filled
    cases filled
  · rw [isOverridden, settled] at filled ⊢
    exact ExpansionRow.contains_overrides_of_call consistent listed names named filled

end GroupingSet

/-- No grouping expression has the identity of an aggregate of an output. -/
def IdsApart (groupBy outputs : List Expr) : Prop :=
  ∀ g ∈ groupBy, ∀ e ∈ outputs, ∀ call ∈ e.calls, g.outputId? ≠ some call.id

instance (groupBy outputs : List Expr) : Decidable (IdsApart groupBy outputs) :=
  inferInstanceAs (Decidable (∀ g ∈ groupBy, ∀ e ∈ outputs, ∀ call ∈ e.calls,
    g.outputId? ≠ some call.id))

namespace Rule.Lowers

variable {rule : Rule} {source : Source} {set : GroupingSet} {pushed : PushedSet}

/-- The result column of an aggregate is found by the identity of the aggregate. -/
theorem resultFor?_of_mem_calls (lowers : rule.Lowers source set pushed)
    (start : source.query.results.values = []) (consistent : ConsistentIds set.aggregates)
    (apart : IdsApart set.groupBy set.aggregates) {call : AggregateCall}
    (asked : call ∈ set.calls) :
    ∃ r ∈ pushed.query.results.values,
      r.expr = call.toExpr ∧ pushed.query.resultFor? call.id = some r := by
  have exprs := lowers.exprs
  rw [start, List.map_nil, List.nil_append] at exprs
  obtain ⟨e, given, inside⟩ := GroupingSet.mem_calls_of_mem asked
  have listed : call.toExpr ∈ pushed.query.results.values.map ResultColumn.expr := by
    rw [exprs]
    exact List.mem_append_right _ (List.mem_map.2 ⟨call, asked, rfl⟩)
  obtain ⟨own, ownHeld, ownExpr⟩ := List.mem_map.1 listed
  cases found : pushed.query.resultFor? call.id with
  | none =>
    have missed := List.find?_eq_none.1 found own ownHeld
    simp [ownExpr] at missed
  | some r =>
    have held : r ∈ pushed.query.results.values := List.mem_of_find?_eq_some found
    have id : r.expr.outputId? = some call.id := by simpa using List.find?_some found
    refine ⟨r, held, ?_, rfl⟩
    have either : r.expr ∈ set.dimensions.map Prod.fst ++ set.calls.map AggregateCall.toExpr := by
      rw [← exprs]
      exact List.mem_map_of_mem held
    rcases List.mem_append.1 either with group | computed
    · obtain ⟨pair, candidate, expr⟩ := List.mem_map.1 group
      have grouped : pair.1 ∈ set.groupBy := (List.of_mem_zip (List.mem_filter.1 candidate).1).1
      rw [← expr] at id
      exact absurd id (apart pair.1 grouped e given call inside)
    · obtain ⟨call', asked', expr⟩ := List.mem_map.1 computed
      rw [← expr, AggregateCall.outputId?_toExpr] at id
      obtain ⟨e', given', inside'⟩ := GroupingSet.mem_calls_of_mem asked'
      rw [← expr]
      exact consistent.toExpr_eq given given' inside inside' (Option.some.inj id)

/-- A lowered query has an aggregation for each aggregate and one more for each post-aggregation. -/
theorem length_aggregations (lowers : rule.Lowers source set pushed)
    (start : source.query = { relation := source.query.relation }) :
    pushed.query.aggregations.length =
      set.calls.length + pushed.query.postAggregations.length := by
  have balanced : pushed.query.Balanced := lowers.balanced (by rw [start]; rfl)
  have columns : pushed.query.results.entries.length =
      set.dimensions.length + set.calls.length := by
    have exprs := congrArg List.length lowers.exprs
    rw [start] at exprs
    simpa [Table.values, Table.empty] using exprs
  have dimensions : pushed.query.dimensions.length = set.dimensions.length := by
    obtain ⟨ds, each, added⟩ := lowers.dimensions
    rw [start] at added
    rw [added, each.length_eq]
    rfl
  unfold Query.Balanced at balanced
  omega

/-- An output that names an aggregate, and that the host does not fill in, is bound to the result
column of that aggregate. -/
theorem binding_of_names (lowers : rule.Lowers source set pushed) {input : Plan}
    {groupBy outputs : List Expr} (member : set ∈ input.groupingSets groupBy outputs)
    (start : source.query.results.values = []) (consistent : ConsistentIds outputs)
    (apart : IdsApart groupBy outputs) {output : Expr} (given : output ∈ outputs)
    {call : AggregateCall} (names : output.stripAlias = call.toExpr)
    (repeats : set.isGroupReference output = false)
    (asked : output.outputId?.bind pushed.overrides.get? = none) :
    call ∈ set.calls ∧ ∃ r ∈ pushed.query.results.values, r.expr = call.toExpr ∧
      pushed.binding output = .column r.name r.storeType r.hostType := by
  obtain ⟨sameGroups, sameOutputs, -⟩ := Plan.mem_groupingSets member
  obtain ⟨id, named⟩ := Expr.exists_outputId?_of_stripAlias names
  have outputAsked : set.isOverridden id = false := by
    rw [named, lowers.overrides] at asked
    rw [GroupingSet.isOverridden, Table.contains, show set.overrides.get? id = none from asked]
    rfl
  have callAsked : set.isOverridden call.id = false := by
    refine Bool.eq_false_iff.2 fun filled => ?_
    have both := GroupingSet.isOverridden_of_call member consistent given names named filled
    rw [outputAsked] at both
    cases both
  have computed : set.isComputed output = true := by
    rw [GroupingSet.isComputed, named, repeats, Option.any_some, outputAsked]
    rfl
  have held : call ∈ set.calls :=
    GroupingSet.mem_calls_of_names (sameOutputs ▸ consistent) (sameOutputs ▸ given) names computed
      callAsked
  obtain ⟨r, listed, expr, found⟩ :=
    lowers.resultFor?_of_mem_calls start (sameOutputs ▸ consistent)
      (by rw [sameGroups, sameOutputs]; exact apart) held
  refine ⟨held, r, listed, expr, ?_⟩
  have result : pushed.result? output = some r := by
    unfold PushedSet.result?
    rw [names]
    simp only [AggregateCall.toExpr, found, Option.some_or]
  rw [PushedSet.binding, asked, result]
  rfl

end Rule.Lowers

/-- Nothing is lost, repeated or bound to the wrong result: the result columns of each pushed query
stand for the dimensions and the required aggregates of its grouping set, the aggregations are
those of the required aggregates and one more for each post-aggregation, and every output that
names an aggregate is bound to its constant or to the result column of that aggregate. -/
theorem results_of_pushAggregate? {catalog : Catalog} {scripts : ScriptCompiler}
    {settings : Settings} {input : Plan} {groupBy outputs : List Expr} {p : PushedAggregate}
    (pushed : pushAggregate? catalog scripts settings (.aggregate input groupBy outputs) = some p)
    (consistent : ConsistentIds outputs) (pure : ∀ g ∈ groupBy, g.calls = [])
    (apart : IdsApart groupBy outputs) :
    List.Forall₂ (fun set pushedSet =>
      pushedSet.query.results.values.map ResultColumn.expr =
        set.dimensions.map Prod.fst ++ set.required.map AggregateCall.toExpr ∧
      pushedSet.query.aggregations.length =
        set.required.length + pushedSet.query.postAggregations.length ∧
      ∀ output ∈ outputs, ∀ call, output.stripAlias = AggregateCall.toExpr call →
        pushedSet.binding output ≠ .unbound ∧
        match output.outputId?.bind set.overrides.get? with
        | some constant => pushedSet.binding output = .literal constant
        | none => ∃ r ∈ pushedSet.query.results.values, r.expr = call.toExpr ∧
            pushedSet.binding output = .column r.name r.storeType r.hostType)
      (input.groupingSets groupBy outputs) p.sets := by
  obtain ⟨source, known, -, lowered⟩ := Rule.exists_source_of_push? pushed
  have empty : source.query = { relation := source.query.relation } := by
    obtain ⟨r, empty⟩ := Source.query_eq_of_ofPlan? known
    rw [empty]
  have start : source.query.results.values = [] := by
    rw [empty]
    rfl
  refine ((List.forall₂_and_left _ _).2 ⟨fun set member => member, lowered⟩).imp ?_
  rintro set pushedSet ⟨member, lowers⟩
  obtain ⟨sameGroups, sameOutputs, -⟩ := Plan.mem_groupingSets member
  have required : set.calls = set.required :=
    GroupingSet.calls_eq_required (by rw [sameGroups]; exact pure)
  refine ⟨?_, ?_, ?_⟩
  · rw [lowers.exprs, start, required]
    rfl
  · rw [lowers.length_aggregations empty, required]
  · intro output given call names
    have repeats : set.isGroupReference output = false := by
      refine Bool.eq_false_iff.2 fun repeats => ?_
      have none := GroupingSet.calls_eq_nil_of_isGroupReference
        (by rw [sameGroups]; exact pure) repeats
      have inside := Expr.mem_calls_of_stripAlias names
      rw [none] at inside
      cases inside
    rw [← lowers.overrides]
    cases filled : output.outputId?.bind pushedSet.overrides.get? with
    | some constant =>
      have literal : pushedSet.binding output = .literal constant := by
        rw [PushedSet.binding, filled]
      rw [literal]
      exact ⟨Binding.noConfusion, rfl⟩
    | none =>
      obtain ⟨-, r, held, expr, bound⟩ :=
        lowers.binding_of_names member start consistent apart given names repeats filled
      rw [bound]
      exact ⟨Binding.noConfusion, r, held, expr, rfl⟩

/-- In every query of a rollup, the average has a result of its own. -/
theorem results_rollup :
    ∃ p, pushAggregate? Sales.catalog .none .allEnabled Sales.rollup = some p ∧
    p.sets.length = 3 ∧ ∀ set ∈ p.sets, set.binding Sales.mean ≠ .unbound := by
  obtain ⟨p, pushed, sets⟩ := Sales.exists_pushed
  have consistent : ConsistentIds Sales.outputs := consistentIds_of_nodup (by decide)
  have pure : ∀ g ∈ Sales.groupBy, g.calls = [] := by decide
  have apart : IdsApart Sales.groupBy Sales.outputs := by decide
  refine ⟨p, pushed, sets, fun set given => ?_⟩
  obtain ⟨_, -, -, -, bound⟩ :=
    Run.exists_item (results_of_pushAggregate? pushed consistent pure apart) given
  exact (bound Sales.mean (by simp [Sales.outputs]) Sales.average rfl).1

end Rollup
