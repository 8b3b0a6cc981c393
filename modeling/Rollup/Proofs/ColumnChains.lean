import Rollup.Proofs.Lowered

/-!
# Inputs without work for the host

The store answers an aggregate in place of everything below it, so nothing below may be work that
only the host can do. What a source cannot absorb is left over, and stays left over under every
projection and filter above it. A source is therefore complete exactly if the plan only passes
columns on, from a scan of a known relation.
-/

namespace Rollup

/-- The expression passes a column on, possibly under other names. -/
def Expr.PassesColumn (e : Expr) : Prop := ∃ attr, e.stripAlias = .column attr

namespace Plan

/-- Projections of columns, any number of them, over a scan of a known relation. -/
inductive IsColumnChain (catalog : Catalog) : Plan → Prop
  | scan {table : String} {output : List Attribute} {r : Relation}
      (known : catalog.relation? table = some r) : IsColumnChain catalog (.scan table output)
  | project {input : Plan} {expressions : List Expr} (below : IsColumnChain catalog input)
      (columns : ∀ e ∈ expressions, e.PassesColumn) :
      IsColumnChain catalog (.project input expressions)

/-- The node changes neither rows nor values. -/
def OnlyPasses : Plan → Prop
  | scan _ _ => True
  | project _ expressions => ∀ e ∈ expressions, e.PassesColumn
  | filter _ _ | expand _ _ _ | aggregate _ _ _ => False

/-- The second plan is the first without the expansion at its top, directly or under a projection,
if it has one. -/
def ReadsThrough (input below : Plan) : Prop :=
  (∃ projections output, input = .expand below projections output) ∨
    (∃ projections output expressions,
      input = .project (.expand below projections output) expressions) ∨
    Expansion.ofPlan? input = none ∧ input = below

/-- The source of an aggregate is its input without the expansion. -/
theorem readsThrough_sourcePlan (input : Plan) : input.ReadsThrough input.sourcePlan := by
  cases input with
  | expand below projections output => exact Or.inl ⟨projections, output, rfl⟩
  | scan | filter | aggregate => exact Or.inr (Or.inr ⟨rfl, rfl⟩)
  | project below expressions =>
    cases below with
    | expand below projections output =>
      exact Or.inr (Or.inl ⟨projections, output, expressions, rfl⟩)
    | scan | filter | project | aggregate => exact Or.inr (Or.inr ⟨rfl, rfl⟩)

/-- No node of a chain of columns changes rows or values. -/
theorem IsColumnChain.onlyPasses {catalog : Catalog} {plan : Plan}
    (chained : plan.IsColumnChain catalog) : ∀ node ∈ plan.chain, node.OnlyPasses := by
  induction chained with
  | scan => exact List.forall_mem_singleton.2 trivial
  | project below columns ih => exact List.forall_mem_cons.2 ⟨columns, ih⟩

end Plan

namespace Expr

/-- A named expression appears under the identity of the column that it adds. -/
theorem outputId?_of_attribute? {e : Expr} {attr : Attribute} (named : e.attribute? = some attr) :
    e.outputId? = some attr.id := by
  cases e with
  | column | aliased =>
    cases named
    rfl
  | literal | cast | scalar | binary | aggregate => cases named

/-- An expression that passes a column on adds a column. -/
theorem PassesColumn.exists_attribute? {e : Expr} (passes : e.PassesColumn) :
    ∃ attr, e.attribute? = some attr := by
  obtain ⟨attr, bare⟩ := passes
  cases e with
  | column attr => exact ⟨attr, rfl⟩
  | aliased inner name id => exact ⟨_, rfl⟩
  | literal | cast | scalar | binary | aggregate => cases bare

end Expr

namespace Source

variable {s : Source}

/-- A source stays complete under a projected expression exactly if that passes a column on. -/
theorem isComplete_project_iff {e : Expr} :
    (s.project e).isComplete = true ↔ s.isComplete = true ∧ e.PassesColumn := by
  constructor
  · intro complete
    unfold project at complete
    split at complete
    · rename_i attr id bare named
      exact ⟨complete, attr, bare⟩
    · -- the expression itself is left over
      simp [isComplete] at complete
  · rintro ⟨complete, passes⟩
    obtain ⟨added, named⟩ := passes.exists_attribute?
    obtain ⟨attr, bare⟩ := passes
    rw [project, bare, Expr.outputId?_of_attribute? named]
    exact complete

/-- A source stays complete under a projection exactly if each expression passes a column on. -/
theorem isComplete_foldl_project_iff {expressions : List Expr} :
    (expressions.foldl project s).isComplete = true ↔
      s.isComplete = true ∧ ∀ e ∈ expressions, e.PassesColumn := by
  induction expressions generalizing s with
  | nil => simp
  | cons e rest ih =>
    rw [List.foldl_cons, ih, isComplete_project_iff, List.forall_mem_cons, and_assoc]

/-- A filter is always left over. -/
theorem isComplete_leave (predicate : Expr) : (s.leave predicate).isComplete = false := by
  simp [leave, isComplete]

end Source

namespace Catalog

variable {catalog : Catalog} {plan : Plan}

/-- The plan has a source that leaves nothing to the host. -/
def Absorbs (catalog : Catalog) (plan : Plan) : Prop :=
  ∃ s, Source.ofPlan? catalog plan = some s ∧ s.isComplete = true

/-- A projection is absorbed exactly if its input is and it passes columns on. -/
theorem absorbs_project_iff {expressions : List Expr} :
    catalog.Absorbs (.project plan expressions) ↔
      catalog.Absorbs plan ∧ ∀ e ∈ expressions, e.PassesColumn := by
  constructor
  · rintro ⟨s, known, complete⟩
    obtain ⟨below, found, rfl⟩ := Option.map_eq_some_iff.1 known
    have both := Source.isComplete_foldl_project_iff.1 complete
    exact ⟨⟨below, found, both.1⟩, both.2⟩
  · rintro ⟨⟨below, found, complete⟩, columns⟩
    have both := Source.isComplete_foldl_project_iff.2 ⟨complete, columns⟩
    exact ⟨_, Option.map_eq_some_iff.2 ⟨below, found, rfl⟩, both⟩

/-- A filter is never absorbed. -/
theorem not_absorbs_filter (predicate : Expr) : ¬ catalog.Absorbs (.filter plan predicate) := by
  rintro ⟨s, known, complete⟩
  obtain ⟨below, -, rfl⟩ := Option.map_eq_some_iff.1 known
  rw [Source.isComplete_leave] at complete
  cases complete

/-- A plan is absorbed exactly if it is a chain of columns. -/
theorem absorbs_iff_isColumnChain : catalog.Absorbs plan ↔ plan.IsColumnChain catalog := by
  induction plan with
  | scan table output =>
    constructor
    · rintro ⟨s, known, -⟩
      obtain ⟨r, found, -⟩ := Option.map_eq_some_iff.1 known
      exact .scan found
    · rintro ⟨found⟩
      exact ⟨_, Option.map_eq_some_iff.2 ⟨_, found, rfl⟩, rfl⟩
  | project input expressions ih =>
    rw [absorbs_project_iff, ih]
    constructor
    · rintro ⟨below, columns⟩
      exact .project below columns
    · intro chained
      cases chained with
      | project below columns => exact ⟨below, columns⟩
  | filter input predicate ih =>
    constructor
    · intro absorbed
      exact absurd absorbed (not_absorbs_filter predicate)
    · rintro ⟨⟩
  | expand | aggregate =>
    constructor
    · rintro ⟨s, known, -⟩
      cases known
    · rintro ⟨⟩

end Catalog

/-- No work of the host is dropped below a pushed aggregate. A plan has a complete source exactly
if it is a chain of columns from a scan of a known relation; and what is pushed is an aggregate
that reads such a chain, up to one expansion, so no node under it changes rows or values. -/
theorem isColumnChain_of_pushAggregate? (catalog : Catalog) :
    (∀ plan, (∃ s, Source.ofPlan? catalog plan = some s ∧ s.isComplete = true) ↔
      plan.IsColumnChain catalog) ∧
    ∀ scripts settings plan p, pushAggregate? catalog scripts settings plan = some p →
      ∃ input groupBy outputs below, plan = .aggregate input groupBy outputs ∧
        input.ReadsThrough below ∧ below.IsColumnChain catalog ∧
        ∀ node ∈ below.chain, node.OnlyPasses := by
  refine ⟨fun plan => Catalog.absorbs_iff_isColumnChain, ?_⟩
  intro scripts settings plan p pushed
  obtain ⟨input, groupBy, outputs, rfl⟩ := Rule.exists_aggregate_of_push? pushed
  obtain ⟨source, known, complete, -⟩ := Rule.exists_source_of_push? pushed
  have chained : input.sourcePlan.IsColumnChain catalog :=
    Catalog.absorbs_iff_isColumnChain.1 ⟨source, known, complete⟩
  exact ⟨input, groupBy, outputs, input.sourcePlan, rfl, input.readsThrough_sourcePlan, chained,
    chained.onlyPasses⟩

namespace Sales

/-- City of a sale under another name. -/
def place : Attribute := { id := ⟨62⟩, name := "place", dataType := .string }

/-- The scan, with the city renamed twice. -/
def places : Plan :=
  .project (.project scan [.aliased (.column scannedCity) "town" ⟨61⟩])
    [.aliased (.aliased (.column { place with id := ⟨61⟩ }) "spot" ⟨63⟩) "place" ⟨62⟩]

/-- The expansion by place, and over everything. -/
def byPlace : Plan :=
  .expand places [[.column place, .literal (.int 0) .int64],
    [.null .string, .literal (.int 1) .int64]] [city, marker]

/-- The number of sales by place, and in total. -/
def perPlace : Plan :=
  .aggregate (.project byPlace [.column city, .column marker]) [.column city, .column marker]
    [.column city, .column marker, .aliased count.toExpr "sales" ⟨23⟩]

/-- The sales with a place that is not null, which only the host can tell. -/
def filtered : Plan := .filter places (.column place)

end Sales

/-- The sales by place are pushed over two projections of columns; a filter over these projections
has no complete source. -/
theorem isColumnChain_perPlace :
    (∃ p, pushAggregate? Sales.catalog .none .allEnabled Sales.perPlace = some p ∧
      ∃ input groupBy outputs below, Sales.perPlace = .aggregate input groupBy outputs ∧
        input.ReadsThrough below ∧ below.IsColumnChain Sales.catalog ∧
        ∀ node ∈ below.chain, node.OnlyPasses) ∧
    (∃ s, Source.ofPlan? Sales.catalog Sales.places = some s ∧ s.isComplete = true) ∧
    ¬ Sales.filtered.IsColumnChain Sales.catalog := by
  have pushes : (pushAggregate? Sales.catalog .none .allEnabled Sales.perPlace).isSome = true := by
    decide +kernel
  obtain ⟨p, pushed⟩ := Option.isSome_iff_exists.1 pushes
  have chains := isColumnChain_of_pushAggregate? Sales.catalog
  refine ⟨⟨p, pushed, chains.2 _ _ _ p pushed⟩, ⟨_, rfl, rfl⟩, ?_⟩
  intro chained
  obtain ⟨s, known, complete⟩ := (chains.1 Sales.filtered).2 chained
  cases known
  cases complete

end Rollup
