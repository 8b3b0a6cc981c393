import Rollup.Proofs.Forms
import Rollup.Proofs.Run
import Rollup.Pushdown.Hybrid

/-!
# Lowered grouping sets

A pushed aggregate has one lowered query for each grouping set, in order. Each query starts empty
over the relation of the source, takes a `GroupedBy` step for every dimension of its set and then a
`ComputedBy` step for every aggregate. What these steps keep therefore holds of every pushed query.
-/

namespace Rollup

namespace Source

/-- Projecting expressions onto a source leaves its query alone. -/
theorem query_foldl_project (s : Source) (expressions : List Expr) :
    (expressions.foldl project s).query = s.query := by
  induction expressions generalizing s with
  | nil => rfl
  | cons e rest ih =>
    have step : (s.project e).query = s.query := by
      unfold project
      split <;> rfl
    rw [List.foldl_cons, ih, step]

/-- The query of a source is empty, over a relation of the catalog. -/
theorem exists_relation_of_ofPlan? {catalog : Catalog} {plan : Plan} {s : Source}
    (known : ofPlan? catalog plan = some s) :
    ∃ table r, catalog.relation? table = some r ∧ s.query = { relation := r } := by
  induction plan generalizing s with
  | scan table output =>
    obtain ⟨r, found, rfl⟩ := Option.map_eq_some_iff.1 known
    exact ⟨table, r, found, rfl⟩
  | filter input predicate ih =>
    obtain ⟨below, found, rfl⟩ := Option.map_eq_some_iff.1 known
    exact ih (s := below) found
  | project input expressions ih =>
    obtain ⟨below, found, rfl⟩ := Option.map_eq_some_iff.1 known
    rw [query_foldl_project]
    exact ih found
  | expand => cases known
  | aggregate => cases known

/-- The query of a source is empty. -/
theorem query_eq_of_ofPlan? {catalog : Catalog} {plan : Plan} {s : Source}
    (known : ofPlan? catalog plan = some s) : ∃ r, s.query = { relation := r } := by
  obtain ⟨table, r, -, empty⟩ := exists_relation_of_ofPlan? known
  exact ⟨r, empty⟩

end Source

/-- Each dimension and each aggregate has a result column, and each post-aggregation takes up one
aggregation beyond that of its result column. -/
def Query.Balanced (q : Query) : Prop :=
  q.dimensions.length + q.aggregations.length =
    q.results.entries.length + q.postAggregations.length

/-- Lowering a grouping expression keeps a query balanced. -/
theorem Query.Balanced.groupedBy {q q' : Query} (before : q.Balanced) {s : Scope}
    {group expanded : Expr} (grouped : s.GroupedBy q group expanded q') : q'.Balanced := by
  obtain ⟨_, _, _, -, -, dimensions, aggregations, posts, results⟩ := grouped.grown
  unfold Balanced at before ⊢
  rw [dimensions, aggregations, posts, results, List.length_append, List.length_append,
    List.length_singleton, List.length_singleton]
  omega

/-- Lowering an aggregate keeps a query balanced. -/
theorem Query.Balanced.computedBy {q q' : Query} (before : q.Balanced) {s : Scope}
    {call : AggregateCall} (computed : s.ComputedBy q call q') : q'.Balanced := by
  obtain ⟨_, _, _, _, -, dimensions, aggregations, posts, sizes, results⟩ := computed.grown
  unfold Balanced at before ⊢
  rw [dimensions, aggregations, posts, results, List.length_append, List.length_append,
    List.length_append, List.length_singleton]
  omega

/-- The plan below an aggregate and below its expansion, if it has one. -/
def Plan.sourcePlan (input : Plan) : Plan :=
  ((Expansion.ofPlan? input).map Expansion.input).getD input

/-- The grouping sets of an aggregate over an input. -/
def Plan.groupingSets (input : Plan) (groupBy outputs : List Expr) : List GroupingSet :=
  GroupingSet.decompose (Expansion.ofPlan? input) groupBy outputs

/-- A grouping set of an aggregate has its grouping expressions and outputs; the host fills in
nothing, or what a row of the expansion settles. -/
theorem Plan.mem_groupingSets {input : Plan} {groupBy outputs : List Expr} {set : GroupingSet}
    (given : set ∈ input.groupingSets groupBy outputs) :
    set.groupBy = groupBy ∧ set.aggregates = outputs ∧
      (set.overrides = .empty ∨ ∃ x : ExpansionRow, set.overrides = x.overrides outputs) := by
  unfold groupingSets GroupingSet.decompose at given
  split at given
  · obtain ⟨x, -, rfl⟩ := List.mem_map.1 given
    exact ⟨rfl, rfl, Or.inr ⟨x, rfl⟩⟩
  · rw [List.mem_singleton.1 given]
    exact ⟨rfl, rfl, Or.inl rfl⟩

/-- A list paired with what its elements stand for. -/
theorem zip_map_self {α β : Type} (xs : List α) (stands : α → β) :
    xs.zip (xs.map stands) = xs.map fun x => (x, stands x) := by
  simpa using List.zip_map' (f := id) (g := stands) (l := xs)

namespace GroupingSet

/-- In a row of an expansion, the store must group by what is not null there and no marker. -/
theorem dimensions_ofRow (groupBy outputs : List Expr) (x : ExpansionRow) :
    (ofRow groupBy outputs x).dimensions = (groupBy.map fun g => (g, x.resolve g)).filter
      fun pair => !isMarker pair.1 && !pair.2.isNullLiteral := by
  rw [dimensions, ofRow, zip_map_self]

/-- An aggregate that the store must compute is not filled in by the host. -/
theorem not_isOverridden_of_mem_calls {set : GroupingSet} {call : AggregateCall}
    (asked : call ∈ set.calls) : set.isOverridden call.id = false := by
  obtain ⟨e, -, kept⟩ := List.mem_flatMap.1 (distinctBy.mem_of_mem asked)
  simpa using (List.mem_filter.1 kept).2

end GroupingSet

namespace Rule

/-- The second set is the lowered form of the first over a source. -/
structure Lowers (rule : Rule) (source : Source) (set : GroupingSet) (pushed : PushedSet) :
    Prop where
  overrides : pushed.overrides = set.overrides
  run : ∃ middle,
    set.dimensions.foldlM
      (fun q pair => (rule.scope source set).lowerGroup? q pair.1 pair.2) source.query =
        some middle ∧
    set.calls.foldlM (rule.scope source set).lowerCall? middle = some pushed.query

/-- A set that is lowered has a run through its dimensions and aggregates. -/
theorem lowers_of_lowerSet? {rule : Rule} {source : Source} {set : GroupingSet}
    {pushed : PushedSet} (lowered : rule.lowerSet? source set = some pushed) :
    rule.Lowers source set pushed := by
  obtain ⟨middle, grouped, lowered⟩ := Option.bind_eq_some_iff.1 lowered
  obtain ⟨query, computed, rfl⟩ := Option.map_eq_some_iff.1 lowered
  exact ⟨rfl, middle, grouped, computed⟩

/-- How an aggregate is pushed, in terms of its source and its grouping sets. -/
theorem push?_aggregate (rule : Rule) (input : Plan) (groupBy outputs : List Expr) :
    rule.push? (.aggregate input groupBy outputs) =
      if (Expansion.ofPlan? input).isSome && !rule.settings.pushGroupingSets then none
      else (rule.source? input.sourcePlan).bind fun source =>
        if source.isComplete then
          ((input.groupingSets groupBy outputs).mapM (rule.lowerSet? source)).map
            fun sets => { sets, groupBy, aggregates := outputs }
        else none :=
  rfl

/-- An aggregate is pushed exactly if grouping sets may be pushed or it has none, its input has a
complete source, and each of its grouping sets has a query over that source. -/
theorem push?_eq_some_iff {rule : Rule} {input : Plan} {groupBy outputs : List Expr}
    {p : PushedAggregate} :
    rule.push? (.aggregate input groupBy outputs) = some p ↔
      ((Expansion.ofPlan? input).isSome = true → rule.settings.pushGroupingSets = true) ∧
      (p.groupBy = groupBy ∧ p.aggregates = outputs) ∧
      ∃ source, rule.source? input.sourcePlan = some source ∧ source.isComplete = true ∧
        List.Forall₂ (fun set pushed => rule.lowerSet? source set = some pushed)
          (input.groupingSets groupBy outputs) p.sets := by
  rw [push?_aggregate]
  constructor
  · intro pushed
    split at pushed
    · cases pushed
    rename_i permitted
    obtain ⟨source, known, pushed⟩ := Option.bind_eq_some_iff.1 pushed
    split at pushed
    · rename_i complete
      obtain ⟨sets, lowered, rfl⟩ := Option.map_eq_some_iff.1 pushed
      refine ⟨?_, ⟨rfl, rfl⟩, source, known, complete, Run.mapM_eq_some_iff.1 lowered⟩
      simpa using permitted
    · cases pushed
  · rintro ⟨permitted, ⟨rfl, rfl⟩, source, known, complete, lowered⟩
    rw [if_neg (by simpa using permitted)]
    refine Option.bind_eq_some_iff.2 ⟨source, known, ?_⟩
    rw [if_pos complete]
    exact Option.map_eq_some_iff.2 ⟨p.sets, Run.mapM_eq_some_iff.2 lowered, rfl⟩

/-- A pushed aggregate has a complete source, and one lowered query for each grouping set. -/
theorem exists_source_of_push? {rule : Rule} {input : Plan} {groupBy outputs : List Expr}
    {p : PushedAggregate} (pushed : rule.push? (.aggregate input groupBy outputs) = some p) :
    ∃ source, rule.source? input.sourcePlan = some source ∧ source.isComplete = true ∧
      List.Forall₂ (rule.Lowers source) (input.groupingSets groupBy outputs) p.sets := by
  obtain ⟨-, -, source, known, complete, lowered⟩ := push?_eq_some_iff.1 pushed
  exact ⟨source, known, complete, lowered.imp fun set pushedSet => lowers_of_lowerSet?⟩

/-- A pushed aggregate over an expansion has one lowered query for each row of the expansion. -/
theorem exists_source_of_expansion {rule : Rule} {input : Plan} {groupBy outputs : List Expr}
    {x : Expansion} {p : PushedAggregate} (expanded : Expansion.ofPlan? input = some x)
    (pushed : rule.push? (.aggregate input groupBy outputs) = some p) :
    ∃ source, rule.source? x.input = some source ∧
      List.Forall₂ (fun row set => rule.Lowers source (.ofRow groupBy outputs row) set) x.rows
        p.sets := by
  obtain ⟨source, known, -, lowered⟩ := exists_source_of_push? pushed
  rw [Plan.sourcePlan, expanded] at known
  rw [Plan.groupingSets, expanded] at lowered
  exact ⟨source, known, List.forall₂_map_left_iff.1 lowered⟩

/-- Only an aggregate is pushed. -/
theorem exists_aggregate_of_push? {rule : Rule} {plan : Plan} {p : PushedAggregate}
    (pushed : rule.push? plan = some p) :
    ∃ input groupBy outputs, plan = .aggregate input groupBy outputs := by
  cases plan with
  | aggregate input groupBy outputs => exact ⟨input, groupBy, outputs, rfl⟩
  | scan | filter | project | expand => cases pushed

namespace Lowers

variable {rule : Rule} {source : Source} {set : GroupingSet} {pushed : PushedSet}

/-- An aggregate of the set is lowered by a computing step. -/
theorem computedBy_of_step {call : AggregateCall} (given : call ∈ set.calls) {q q' : Query}
    (lowered : (rule.scope source set).lowerCall? q call = some q') :
    (rule.scope source set).ComputedBy q call q' :=
  Scope.computedBy_of_lowerCall? (GroupingSet.not_isOverridden_of_mem_calls given) lowered

/-- A pushed query has what the query of the source has and every step keeps. -/
theorem keeps (lowers : rule.Lowers source set pushed) {P : Query → Prop}
    (start : P source.query)
    (grouped : ∀ pair ∈ set.dimensions, ∀ q q', P q →
      (rule.scope source set).GroupedBy q pair.1 pair.2 q' → P q')
    (computed : ∀ call ∈ set.calls, ∀ q q', P q →
      (rule.scope source set).ComputedBy q call q' → P q') :
    P pushed.query := by
  obtain ⟨middle, groups, calls⟩ := lowers.run
  have between : P middle := by
    refine Run.keeps ?_ start groups
    intro pair given q q' before lowered
    exact grouped pair given q q' before (Scope.groupedBy_of_lowerGroup? lowered)
  refine Run.keeps ?_ between calls
  intro call given q q' before lowered
  exact computed call given q q' before (computedBy_of_step given lowered)

/-- What holds of every dimension and every aggregation that a step adds to a query over a relation
holds of all of them, if the source is empty over that relation. -/
theorem specs (lowers : rule.Lowers source set pushed) {r : Relation}
    (empty : source.query = { relation := r }) {D : Dimension → Prop} {A : Aggregation → Prop}
    (grouped : ∀ q q' group expanded, q.relation = r →
      (rule.scope source set).GroupedBy q group expanded q' →
      ∃ d, q'.dimensions = q.dimensions ++ [d] ∧ D d)
    (computed : ∀ q q' call, q.relation = r → (rule.scope source set).ComputedBy q call q' →
      ∃ added, q'.aggregations = q.aggregations ++ added ∧ ∀ a ∈ added, A a) :
    (∀ d ∈ pushed.query.dimensions, D d) ∧ ∀ a ∈ pushed.query.aggregations, A a := by
  suffices all : pushed.query.relation = r ∧ (∀ d ∈ pushed.query.dimensions, D d) ∧
      ∀ a ∈ pushed.query.aggregations, A a from all.2
  refine lowers.keeps (P := fun q => q.relation = r ∧ (∀ d ∈ q.dimensions, D d) ∧
    ∀ a ∈ q.aggregations, A a) ?_ ?_ ?_
  · rw [empty]
    exact ⟨rfl, List.forall_mem_nil D, List.forall_mem_nil A⟩
  · rintro ⟨group, expanded⟩ - q q' ⟨relation, dimensions, aggregations⟩ step
    obtain ⟨_, _, _, -, same, -, unchanged, -, -⟩ := step.grown
    obtain ⟨d, added, holds⟩ := grouped q q' group expanded relation step
    refine ⟨same.trans relation, ?_, unchanged ▸ aggregations⟩
    rw [added]
    exact List.forall_mem_append.2 ⟨dimensions, List.forall_mem_singleton.2 holds⟩
  · rintro call - q q' ⟨relation, dimensions, aggregations⟩ step
    obtain ⟨_, _, _, _, same, unchanged, -, -, -, -⟩ := step.grown
    obtain ⟨added, appended, hold⟩ := computed q q' call relation step
    refine ⟨same.trans relation, unchanged ▸ dimensions, ?_⟩
    rw [appended]
    exact List.forall_mem_append.2 ⟨aggregations, hold⟩

/-- The result columns stand for the dimensions of the set, then for its aggregates. -/
theorem exprs (lowers : rule.Lowers source set pushed) :
    pushed.query.results.values.map ResultColumn.expr =
      source.query.results.values.map ResultColumn.expr ++ set.dimensions.map Prod.fst ++
        set.calls.map AggregateCall.toExpr := by
  obtain ⟨middle, groups, calls⟩ := lowers.run
  have grouped := Run.appends_map (fun q => q.results.values.map ResultColumn.expr) Prod.fst
    (fun pair _ q q' lowered => by
      obtain ⟨_, _, _, -, -, -, -, -, results⟩ :=
        (Scope.groupedBy_of_lowerGroup? lowered).grown
      simp [Table.values, results, Scope.groupColumn]) groups
  have computed := Run.appends_map (fun q => q.results.values.map ResultColumn.expr)
    AggregateCall.toExpr
    (fun call given q q' lowered => by
      obtain ⟨_, _, _, _, -, -, -, -, -, results⟩ := (computedBy_of_step given lowered).grown
      simp [Table.values, results, Scope.callColumn]) calls
  rw [computed, grouped]

/-- The pushed query is balanced if that of the source is. -/
theorem balanced (lowers : rule.Lowers source set pushed) (start : source.query.Balanced) :
    pushed.query.Balanced :=
  lowers.keeps start (fun _ _ _ _ before grouped => before.groupedBy grouped)
    fun _ _ _ _ before computed => before.computedBy computed

/-- The dimensions of a lowered query are those of its grouping steps, in order, and each has a
result column that stands for its grouping expression. -/
theorem dimensions (lowers : rule.Lowers source set pushed) :
    ∃ ds, List.Forall₂ (fun pair d =>
        (∃ r, pushed.query.result? d.outputName = some r ∧ r.expr = pair.1) ∧
        ∃ q q', source.query.Extends q ∧ (rule.scope source set).GroupedBy q pair.1 pair.2 q' ∧
          q'.dimensions = q.dimensions ++ [d]) set.dimensions ds ∧
      pushed.query.dimensions = source.query.dimensions ++ ds := by
  obtain ⟨middle, groups, calls⟩ := lowers.run
  have unchanged : pushed.query.dimensions = middle.dimensions := by
    refine Run.keeps (P := fun q => q.dimensions = middle.dimensions) ?_ rfl calls
    intro call given q q' before lowered
    obtain ⟨_, _, _, _, -, same, -, -, -, -⟩ := (computedBy_of_step given lowered).grown
    exact same.trans before
  have after : middle.Extends pushed.query :=
    Run.leads Query.Extends.refl Query.Extends.trans
      (fun _ given _ _ lowered => (computedBy_of_step given lowered).extended) calls
  obtain ⟨ds, each, added⟩ := Run.traced Query.dimensions Query.Extends.refl Query.Extends.trans
    (fun _ _ _ _ lowered => (Scope.groupedBy_of_lowerGroup? lowered).extended)
    (fun pair _ q q' lowered => by
      obtain ⟨_, d, _, -, -, dimensions, -, -, -⟩ :=
        (Scope.groupedBy_of_lowerGroup? lowered).grown
      exact ⟨d, dimensions⟩) groups
  refine ⟨ds, each.imp ?_, unchanged.trans added⟩
  rintro pair d ⟨q, q', reached, lowered, here, onward⟩
  have grouped := Scope.groupedBy_of_lowerGroup? lowered
  refine ⟨?_, q, q', reached, grouped, here⟩
  obtain ⟨name, recorded, storeType, named, -, dimensions, -, -, results⟩ := grouped.grown
  rw [here, List.append_cancel_left_eq, List.singleton_inj] at dimensions
  have held : (name, Scope.groupColumn name pair.1 storeType) ∈ pushed.query.results.entries := by
    refine (onward.trans after).results.subset ?_
    rw [results]
    exact List.mem_append_right _ List.mem_cons_self
  rw [dimensions, named]
  exact ⟨_, Table.get?_of_mem held, rfl⟩

/-- Each dimension of a lowered set has its step on the way to the pushed query. -/
theorem exists_groupedBy (lowers : rule.Lowers source set pushed) {pair : Expr × Expr}
    (given : pair ∈ set.dimensions) :
    ∃ q q', source.query.Extends q ∧
      (rule.scope source set).GroupedBy q pair.1 pair.2 q' := by
  obtain ⟨middle, groups, -⟩ := lowers.run
  obtain ⟨q, q', reached, lowered, -⟩ :=
    Run.passes Query.Extends.refl Query.Extends.trans
      (fun _ _ _ _ lowered => (Scope.groupedBy_of_lowerGroup? lowered).extended) groups given
  exact ⟨q, q', reached, Scope.groupedBy_of_lowerGroup? lowered⟩

/-- Every result column of a lowered query was recorded by the step of its dimension or of its
aggregate. -/
theorem origin (lowers : rule.Lowers source set pushed)
    (start : source.query.results.entries = []) {entry : String × ResultColumn}
    (held : entry ∈ pushed.query.results.entries) :
    (∃ pair ∈ set.dimensions, entry.2.expr = pair.1 ∧ ∃ q q', source.query.Extends q ∧
      (rule.scope source set).GroupedBy q pair.1 pair.2 q' ∧
      q'.results.entries = q.results.entries ++ [entry] ∧ q'.Extends pushed.query) ∨
    ∃ call ∈ set.calls, entry.2.expr = call.toExpr ∧ ∃ q q', source.query.Extends q ∧
      (rule.scope source set).ComputedBy q call q' ∧
      q'.results.entries = q.results.entries ++ [entry] ∧ q'.Extends pushed.query := by
  obtain ⟨middle, groups, calls⟩ := lowers.run
  have before : source.query.Extends middle :=
    Run.leads Query.Extends.refl Query.Extends.trans
      (fun _ _ _ _ lowered => (Scope.groupedBy_of_lowerGroup? lowered).extended) groups
  have after : middle.Extends pushed.query :=
    Run.leads Query.Extends.refl Query.Extends.trans
      (fun _ given _ _ lowered => (computedBy_of_step given lowered).extended) calls
  -- what no aggregate recorded was there before them, so a dimension did
  rcases Run.origin (fun q => q.results.entries) Query.Extends.refl Query.Extends.trans
    (fun _ given _ _ lowered => (computedBy_of_step given lowered).extended)
    (fun call given q q' lowered => by
      obtain ⟨_, _, _, _, -, -, -, -, -, results⟩ := (computedBy_of_step given lowered).grown
      exact ⟨_, results⟩) calls held
    with early | ⟨call, given, q, q', reached, lowered, added, onward⟩
  · rcases Run.origin (fun q => q.results.entries) Query.Extends.refl Query.Extends.trans
      (fun _ _ _ _ lowered => (Scope.groupedBy_of_lowerGroup? lowered).extended)
      (fun pair _ q q' lowered => by
        obtain ⟨_, _, _, -, -, -, -, -, results⟩ :=
          (Scope.groupedBy_of_lowerGroup? lowered).grown
        exact ⟨_, results⟩) groups early
      with none | ⟨pair, given, q, q', reached, lowered, added, onward⟩
    · simp only [start, List.not_mem_nil] at none
    · have grouped := Scope.groupedBy_of_lowerGroup? lowered
      exact Or.inl ⟨pair, given, grouped.expr_eq added, q, q', reached, grouped, added,
        onward.trans after⟩
  · have computed := computedBy_of_step given lowered
    exact Or.inr ⟨call, given, computed.expr_eq added, q, q', before.trans reached, computed,
      added, onward⟩

end Lowers

end Rule

/-! ## A rollup of sales -/

namespace Sales

/-- Sales by city and country: their prices, and the number of rows that each row stands for. -/
def relation : Relation where
  name := "sales"
  timeColumn := "ts"
  columns := [
    { name := "city", kind := .dimension, dataType := .string },
    { name := "country", kind := .dimension, dataType := .string },
    { name := "price", kind := .metric, dataType := .float64 },
    { name := "n", kind := .metric, dataType := .int64, isRowCount := true }]

/-- The catalog of this relation. -/
def catalog : Catalog := .ofList [relation]

/-- City of a sale, as the scan puts it out. -/
def scannedCity : Attribute := { id := ⟨1⟩, name := "city", dataType := .string }

/-- Country of a sale, as the scan puts it out. -/
def scannedCountry : Attribute := { id := ⟨2⟩, name := "country", dataType := .string }

/-- Price of a sale. -/
def price : Attribute := { id := ⟨3⟩, name := "price", dataType := .float64 }

/-- City, or null outside the sets that have it. -/
def city : Attribute := { id := ⟨11⟩, name := "city", dataType := .string }

/-- Country, or null outside the sets that have it. -/
def country : Attribute := { id := ⟨12⟩, name := "country", dataType := .string }

/-- Number of the grouping set. -/
def marker : Attribute := { id := ⟨13⟩, name := "spark_grouping_id", dataType := .int64 }

/-- The scan of the relation. -/
def scan : Plan := .scan "sales" [scannedCity, scannedCountry, price]

/-- Columns of the expansion. -/
def output : List Attribute := [price, city, country, marker]

/-- Rows of the expansion: by city and country, by city, and over everything. -/
def projections : List (List Expr) := [
  [.column price, .column scannedCity, .column scannedCountry, .literal (.int 0) .int64],
  [.column price, .column scannedCity, .null .string, .literal (.int 1) .int64],
  [.column price, .null .string, .null .string, .literal (.int 3) .int64]]

/-- The average of the prices. -/
def average : AggregateCall :=
  { id := ⟨20⟩, func := .avg, dataType := .float64, args := [.column price] }

/-- The output of this average. -/
def mean : Expr := .aliased average.toExpr "mean" ⟨21⟩

/-- The number of sales. -/
def count : AggregateCall := { id := ⟨22⟩, func := .count, dataType := .int64, args := [] }

/-- Columns by which the host groups. -/
def groupBy : List Expr := [city, country, marker].map .column

/-- Outputs of the aggregate. -/
def outputs : List Expr :=
  groupBy ++ [mean, .aliased count.toExpr "sales" ⟨23⟩]

/-- The rollup of the average price and the number of sales. -/
def rollup : Plan := .aggregate (.expand scan projections output) groupBy outputs

/-- The rollup is pushed, with a query for each grouping set. -/
theorem length_sets :
    ((pushAggregate? catalog .none .allEnabled rollup).map fun p => p.sets.length) = some 3 := by
  decide +kernel

/-- The rollup is pushed. -/
theorem exists_pushed : ∃ p, pushAggregate? catalog .none .allEnabled rollup = some p ∧
    p.sets.length = 3 :=
  Option.map_eq_some_iff.1 length_sets

end Sales

end Rollup
