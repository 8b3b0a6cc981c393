import Rollup.Proofs.Lowered

/-!
# Rewritten plans

A plan is a chain of nodes from its root down to a scan. Optimizing it answers by the store the
first node of the chain that can be pushed, copies the nodes above it, and changes nothing else. No
node below is passed over: a pushed aggregate reads a scan through projections, and perhaps an
expansion, so there is no other aggregate below it.
-/

namespace Rollup

namespace Plan

variable {plan input node : Plan} {above below : List Plan}

/-- What holds of a plan as soon as it holds of its input holds of every plan. -/
theorem descend {P : Plan → Prop}
    (step : ∀ plan, (∀ input, plan.input? = some input → P input) → P plan) (plan : Plan) :
    P plan := by
  induction plan with
  | scan table output => exact step _ fun _ found => nomatch found
  | filter _ _ ih | project _ _ ih | expand _ _ _ ih | aggregate _ _ _ ih =>
    refine step _ fun input found => ?_
    cases found
    exact ih

/-- A plan without input is all of its chain. -/
theorem chain_of_leaf (leaf : plan.input? = none) : plan.chain = [plan] := by
  rw [chain_eq, leaf]
  rfl

/-- The chain of a plan continues with that of its input. -/
theorem chain_of_input? (found : plan.input? = some input) : plan.chain = plan :: input.chain := by
  rw [chain_eq, found]
  rfl

/-- A chain starts with its plan, and what follows is the chain of the input. -/
theorem chain_eq_cons (split : plan.chain = node :: below) :
    plan = node ∧ ∀ other ∈ below, ∃ input, plan.input? = some input ∧ input.chain = below := by
  cases found : plan.input? with
  | none =>
    rw [chain_of_leaf found] at split
    cases split
    exact ⟨rfl, fun _ held => absurd held List.not_mem_nil⟩
  | some input =>
    rw [chain_of_input? found] at split
    cases split
    exact ⟨rfl, fun _ _ => ⟨input, rfl, rfl⟩⟩

/-- From a node on, a chain is the chain of that node. -/
theorem chain_of_split (split : plan.chain = above ++ node :: below) :
    node.chain = node :: below := by
  induction above generalizing plan with
  | nil =>
    obtain ⟨rfl, -⟩ := chain_eq_cons split
    exact split
  | cons head rest ih =>
    obtain ⟨-, onward⟩ := chain_eq_cons split
    obtain ⟨input, -, split⟩ := onward node List.mem_append_cons_self
    exact ih split

end Plan

namespace HybridPlan

/-- The root of a plan over another input. -/
def onto : Plan → HybridPlan → HybridPlan
  | .scan table output, _ => scan table output
  | .filter _ predicate, input => filter input predicate
  | .project _ expressions, input => project input expressions
  | .expand _ projections output, input => expand input projections output
  | .aggregate _ groupBy aggregates, input => aggregate input groupBy aggregates

/-- The first node of a plan that can be pushed is answered by the store; the nodes above it are
copied, and no other node could have been pushed. -/
structure PushesFirst (result : HybridPlan) (push? : Plan → Option PushedAggregate)
    (plan : Plan) : Prop where
  /-- Where no node can be pushed, the plan stays as it is. -/
  untouched : (∀ node ∈ plan.chain, push? node = none) → result = ofPlan plan
  /-- The first node that can be pushed is replaced, and none below it can be pushed. -/
  replaced : ∀ above node below p, plan.chain = above ++ node :: below →
    (∀ other ∈ above, push? other = none) → push? node = some p →
      result = above.foldr onto (store p) ∧ ∀ other ∈ below, push? other = none
  /-- The store answers every node that can be pushed. -/
  complete : result.pushed = plan.chain.filterMap push?
  single : result.pushed.length ≤ 1
  output : result.output = plan.output

variable {plan input : Plan}

/-- A plan with nothing pushed is its root over its input with nothing pushed. -/
theorem ofPlan_of_input? (found : plan.input? = some input) :
    ofPlan plan = onto plan (ofPlan input) := by
  cases plan with
  | scan => cases found
  | filter | project | expand | aggregate =>
    cases found
    rfl

/-- A root puts out the same columns over every input that does. -/
theorem output_onto (found : plan.input? = some input) {other : HybridPlan}
    (same : other.output = input.output) : (onto plan other).output = plan.output := by
  cases plan with
  | scan => cases found
  | filter =>
    cases found
    exact same
  | project | expand | aggregate => rfl

/-- A root that is copied adds nothing to what is pushed. -/
theorem pushed_onto (found : plan.input? = some input) (other : HybridPlan) :
    (onto plan other).pushed = other.pushed := by
  cases plan with
  | scan => cases found
  | filter | project | expand | aggregate => rfl

/-- The store answers at most one aggregate of a plan, since it answers everything below. -/
theorem length_pushed_le (plan : HybridPlan) : plan.pushed.length ≤ 1 := by
  induction plan with
  | scan => exact Nat.zero_le 1
  | filter _ _ ih | project _ _ ih | expand _ _ _ ih | aggregate _ _ _ ih => exact ih
  | store => exact Nat.le_refl 1

end HybridPlan

/-- In a plan that has a source, no node can be pushed. -/
theorem Source.push?_eq_none {catalog : Catalog} {plan : Plan} {s : Source}
    (known : ofPlan? catalog plan = some s) (rule : Rule) :
    ∀ node ∈ plan.chain, rule.push? node = none := by
  induction plan generalizing s with
  | scan => exact List.forall_mem_singleton.2 rfl
  | filter _ _ ih | project _ _ ih =>
    obtain ⟨below, found, -⟩ := Option.map_eq_some_iff.1 known
    exact List.forall_mem_cons.2 ⟨rfl, ih found⟩
  | expand | aggregate => cases known

/-- The expansion that an aggregate reads, and the projection above it, cannot be pushed. -/
theorem Plan.push?_eq_none_of_sourcePlan {rule : Rule} {input : Plan}
    (nothing : ∀ node ∈ input.sourcePlan.chain, rule.push? node = none) :
    ∀ node ∈ input.chain, rule.push? node = none := by
  cases input with
  | scan | filter | aggregate => exact nothing
  | expand => exact List.forall_mem_cons.2 ⟨rfl, nothing⟩
  | project below _ =>
    cases below with
    | scan | filter | project | aggregate => exact nothing
    | expand => exact List.forall_mem_cons.2 ⟨rfl, List.forall_mem_cons.2 ⟨rfl, nothing⟩⟩

namespace Rule

variable {rule : Rule} {plan input : Plan} {p : PushedAggregate}

/-- A node that can be pushed is answered by the store. -/
theorem apply_of_push? (pushed : rule.push? plan = some p) : rule.apply plan = .store p := by
  obtain ⟨input, groupBy, outputs, rfl⟩ := exists_aggregate_of_push? pushed
  rw [apply, pushed]

/-- A plan without input stays as it is. -/
theorem apply_of_leaf (leaf : plan.input? = none) : rule.apply plan = .ofPlan plan := by
  cases plan with
  | scan => rfl
  | filter | project | expand | aggregate => cases leaf

/-- A node that cannot be pushed is copied over its rewritten input. -/
theorem apply_of_input? (kept : rule.push? plan = none) (found : plan.input? = some input) :
    rule.apply plan = .onto plan (rule.apply input) := by
  cases plan with
  | scan => cases found
  | filter | project | expand =>
    cases found
    rfl
  | aggregate =>
    cases found
    rw [apply, kept]
    rfl

/-- A plan without a node that can be pushed stays as it is. -/
theorem apply_eq_ofPlan (nothing : ∀ node ∈ plan.chain, rule.push? node = none) :
    rule.apply plan = .ofPlan plan := by
  induction plan using Plan.descend with
  | step plan ih =>
    cases found : plan.input? with
    | none => exact apply_of_leaf found
    | some input =>
      rw [Plan.chain_of_input? found, List.forall_mem_cons] at nothing
      rw [apply_of_input? nothing.1 found, ih input found nothing.2,
        HybridPlan.ofPlan_of_input? found]

/-- The nodes above the first one that can be pushed are copied over what the store answers. -/
theorem apply_eq_foldr {above below : List Plan} {node : Plan}
    (split : plan.chain = above ++ node :: below)
    (nothing : ∀ other ∈ above, rule.push? other = none) (pushed : rule.push? node = some p) :
    rule.apply plan = above.foldr .onto (.store p) := by
  induction above generalizing plan with
  | nil =>
    obtain ⟨rfl, -⟩ := Plan.chain_eq_cons split
    exact apply_of_push? pushed
  | cons head rest ih =>
    obtain ⟨kept, keptToo⟩ := List.forall_mem_cons.1 nothing
    obtain ⟨rfl, onward⟩ := Plan.chain_eq_cons split
    obtain ⟨input, found, split⟩ := onward node List.mem_append_cons_self
    rw [apply_of_input? kept found, ih split keptToo, List.foldr_cons]

/-- A pushed aggregate puts out the columns of its node. -/
theorem output_of_push? (pushed : rule.push? plan = some p) : p.output = plan.output := by
  obtain ⟨input, groupBy, outputs, rfl⟩ := exists_aggregate_of_push? pushed
  obtain ⟨-, ⟨-, rfl⟩, -⟩ := push?_eq_some_iff.1 pushed
  rfl

/-- A rewritten plan puts out the same columns. -/
theorem output_apply (rule : Rule) (plan : Plan) : (rule.apply plan).output = plan.output := by
  induction plan using Plan.descend with
  | step plan ih =>
    cases tried : rule.push? plan with
    | some p =>
      rw [apply_of_push? tried]
      exact output_of_push? tried
    | none =>
      cases found : plan.input? with
      | none => rw [apply_of_leaf found, HybridPlan.output_ofPlan]
      | some input =>
        rw [apply_of_input? tried found]
        exact HybridPlan.output_onto found (ih input found)

section Catalog

variable {catalog : Catalog} {scripts : ScriptCompiler} {settings : Settings}

/-- Below an aggregate that can be pushed, no node can be pushed. -/
theorem push?_eq_none_below (pushed : (ofCatalog catalog scripts settings).push? plan = some p)
    (found : plan.input? = some input) :
    ∀ node ∈ input.chain, (ofCatalog catalog scripts settings).push? node = none := by
  obtain ⟨_, groupBy, outputs, rfl⟩ := exists_aggregate_of_push? pushed
  cases found
  obtain ⟨source, known, -⟩ := exists_source_of_push? pushed
  exact Plan.push?_eq_none_of_sourcePlan (Source.push?_eq_none known _)

/-- In a rewritten plan, the store answers every node that could be pushed. -/
theorem pushed_apply (plan : Plan) :
    ((ofCatalog catalog scripts settings).apply plan).pushed =
      plan.chain.filterMap (ofCatalog catalog scripts settings).push? := by
  induction plan using Plan.descend with
  | step plan ih =>
    cases tried : (ofCatalog catalog scripts settings).push? plan with
    | some p =>
      obtain ⟨input, groupBy, outputs, rfl⟩ := exists_aggregate_of_push? tried
      have rest : input.chain.filterMap (ofCatalog catalog scripts settings).push? = [] :=
        List.filterMap_eq_nil_iff.2 (push?_eq_none_below tried rfl)
      rw [apply_of_push? tried, Plan.chain, List.filterMap_cons_some tried, rest]
      rfl
    | none =>
      cases found : plan.input? with
      | none =>
        rw [apply_of_leaf found, Plan.chain_of_leaf found, HybridPlan.pushed_ofPlan,
          List.filterMap_cons_none tried, List.filterMap_nil]
      | some input =>
        rw [apply_of_input? tried found, HybridPlan.pushed_onto found, ih input found,
          Plan.chain_of_input? found, List.filterMap_cons_none tried]

end Catalog

end Rule

/-- Under valid settings, optimizing a plan answers by the store the first node that can be pushed
and leaves everything else as it is. -/
theorem optimize_pushesFirst (catalog : Catalog) (scripts : ScriptCompiler) {settings : Settings}
    (valid : settings.validate = .ok ()) (plan : Plan) :
    ∃ result, optimize catalog scripts settings plan = .ok result ∧
      result.PushesFirst (pushAggregate? catalog scripts settings) plan := by
  have optimized : optimize catalog scripts settings plan =
      .ok ((Rule.ofCatalog catalog scripts settings).apply plan) := by
    rw [optimize, valid]
    rfl
  refine ⟨_, optimized, ?_⟩
  constructor
  case untouched => exact Rule.apply_eq_ofPlan
  case replaced =>
    intro above node below p split nothing pushed
    refine ⟨Rule.apply_eq_foldr split nothing pushed, fun other held => ?_⟩
    -- the chain goes on below the node as the chain of its input
    obtain ⟨-, onward⟩ := Plan.chain_eq_cons (Plan.chain_of_split split)
    obtain ⟨input, found, rfl⟩ := onward other held
    exact Rule.push?_eq_none_below pushed found other held
  case complete => exact Rule.pushed_apply plan
  case single => exact HybridPlan.length_pushed_le _
  case output => exact Rule.output_apply _ plan

namespace Sales

/-- Average price in a grouping set, as the rollup puts it out. -/
def meanPrice : Attribute := { id := ⟨21⟩, name := "mean", dataType := .float64 }

/-- The average prices of the grouping sets. -/
def means : Plan := .project rollup [.column meanPrice]

/-- The highest of these prices. -/
def highest : AggregateCall :=
  { id := ⟨61⟩, func := .max, dataType := .float64, args := [.column meanPrice] }

/-- The highest average price. -/
def summary : Plan := .aggregate means [] [highest.toExpr]

end Sales

/-- Under the aggregate and the projection of a summary, the store answers the rollup. -/
theorem optimize_summary :
    Settings.allEnabled.validate = .ok () ∧
    ∃ p, pushAggregate? Sales.catalog .none .allEnabled Sales.rollup = some p ∧
      optimize Sales.catalog .none .allEnabled Sales.summary =
        .ok (.aggregate (.project (.store p) [.column Sales.meanPrice]) []
          [Sales.highest.toExpr]) := by
  obtain ⟨p, pushed, -⟩ := Sales.exists_pushed
  have valid : Settings.allEnabled.validate = .ok () := by
    rw [Settings.validate_eq_ok_iff]
    decide +kernel
  obtain ⟨result, optimized, first⟩ :=
    optimize_pushesFirst Sales.catalog .none valid Sales.summary
  have above : ∀ other ∈ [Sales.summary, Sales.means],
      pushAggregate? Sales.catalog .none .allEnabled other = none :=
    List.forall_mem_cons.2 ⟨rfl, List.forall_mem_singleton.2 rfl⟩
  obtain ⟨rfl, -⟩ := first.replaced _ _ _ p rfl above pushed
  exact ⟨valid, p, pushed, optimized⟩

end Rollup
