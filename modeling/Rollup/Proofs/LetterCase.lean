import Rollup.Proofs.Content
import Rollup.Proofs.Recasing

/-!
# Case of letters in column names

Columns are known by name in the store, and by identity in the host. Where names differ in the case
of the letters A to Z alone, they are the same name to the store; so the names in a plan may be
spelled in another case, even if different names become equal by it. Without scripts, the plan is
pushed or refused as before, each of its queries asks for the same in the same order, and the host
fills in the same constants.
-/

namespace Rollup

namespace Source

/-- A source that differs from another by the case of names. -/
structure Recases (ρ : Recasing) (s s' : Source) : Prop where
  query : s'.query = s.query
  residual : s'.residual = s.residual.map (Expr.recase ρ)
  storeColumns : ∀ id, s'.storeColumns.get? id = (s.storeColumns.get? id).map ρ.rename

namespace Recases

variable {ρ : Recasing} {s s' : Source}

/-- The sources are complete together. -/
theorem isComplete (recases : s.Recases ρ s') : s.isComplete = s'.isComplete := by
  rw [Source.isComplete, Source.isComplete, recases.residual, List.isEmpty_map]

/-- An expression that is left to one host is left to the other. -/
theorem leave (recases : s.Recases ρ s') (e : Expr) :
    (s.leave e).Recases ρ (s'.leave (e.recase ρ)) where
  query := recases.query
  residual := by
    rw [Source.leave, Source.leave, recases.residual, List.map_append, List.map_singleton]
  storeColumns := recases.storeColumns

/-- A column reads the same store column. -/
theorem storeName (recases : s.Recases ρ s') (attr : Attribute) :
    s'.storeName (attr.recase ρ) = ρ.rename (s.storeName attr) := by
  unfold Source.storeName
  rw [recases.storeColumns]
  change ((s.storeColumns.get? attr.id).map ρ.rename).getD (ρ.rename attr.name) = _
  cases s.storeColumns.get? attr.id <;> rfl

/-- An expression that one projection absorbs is absorbed by the other. -/
theorem project (recases : s.Recases ρ s') (e : Expr) :
    (s.project e).Recases ρ (s'.project (e.recase ρ)) := by
  unfold Source.project
  rw [Expr.stripAlias_recase, Expr.outputId?_recase]
  cases e.stripAlias with
  | column attr =>
    cases e.outputId? with
    | none => exact recases.leave e
    | some id =>
      refine ⟨recases.query, recases.residual, fun k => ?_⟩
      change (s'.storeColumns.insert id (s'.storeName (attr.recase ρ))).get? k =
        ((s.storeColumns.insert id (s.storeName attr)).get? k).map ρ.rename
      rw [Table.get?_insert, Table.get?_insert, recases.storeName]
      split
      · rfl
      · exact recases.storeColumns k
  | literal | aliased | cast | scalar | binary | aggregate => exact recases.leave e

/-- A projection absorbs and leaves the same. -/
theorem foldl_project (recases : s.Recases ρ s') (expressions : List Expr) :
    (expressions.foldl Source.project s).Recases ρ
      ((expressions.map (Expr.recase ρ)).foldl Source.project s') := by
  induction expressions generalizing s s' with
  | nil => exact recases
  | cons e rest ih => exact ih (recases.project e)

end Recases

/-- A plan has the same source. -/
theorem rel_ofPlan?_recase (ρ : Recasing) (catalog : Catalog) (plan : Plan) :
    Option.Rel (Recases ρ) (ofPlan? catalog plan) (ofPlan? catalog (plan.recase ρ)) := by
  induction plan with
  | scan table output =>
    rw [Plan.recase, ofPlan?, ofPlan?]
    cases catalog.relation? table with
    | none => exact .none
    | some r => exact .some ⟨rfl, rfl, fun _ => rfl⟩
  | filter input predicate ih => exact Run.rel_map ih fun s s' recases => recases.leave predicate
  | project input expressions ih =>
    exact Run.rel_map ih fun s s' recases => recases.foldl_project expressions
  | expand | aggregate => exact .none

end Source

namespace Relation

variable (r : Relation) (ρ : Recasing) (name : String)

/-- Time is found under its name in any case. -/
theorem isTimeColumn_recase : r.isTimeColumn (ρ.rename name) = r.isTimeColumn name := by
  rw [isTimeColumn, isTimeColumn, Text.sameName_comm, ρ.sameName, Text.sameName_comm]

/-- A dimension is found under its name in any case. -/
theorem dimension?_recase : r.dimension? (ρ.rename name) = r.dimension? name := by
  rw [dimension?, dimension?, r.column?_congr (ρ.fold name)]

end Relation

section Time

variable (r : Relation) (ρ : Recasing)

/-- An expression stands for the same point in time. -/
theorem TimeSource.ofExpr?_recase (e : Expr) : ofExpr? r (e.recase ρ) = ofExpr? r e := by
  unfold ofExpr?
  rw [Expr.stripCasts_recase]
  cases e.stripCasts with
  | column attr => simp only [Expr.recase, Attribute.recase, r.isTimeColumn_recase]
  | scalar func args =>
    cases func with
    | toTimestamp =>
      rcases args with _ | ⟨text, _ | ⟨format, _ | _⟩⟩
      · rfl
      · rfl
      · simp only [Expr.recase, Expr.recaseAll, Expr.stripCasts_recase, Expr.stringLiteral?_recase]
        cases text.stripCasts with
        | column attr => simp only [Expr.recase, Attribute.recase, r.dimension?_recase]
        | literal | aliased | cast | scalar | binary | aggregate => rfl
      · rfl
    | dateFormat | dateTrunc | year | month | dayOfMonth | hour | minute | upper | lower | concat
    | substring | coalesce => rfl
  | literal | aliased | cast | binary | aggregate => rfl

/-- An expression is written as the same point in time. -/
theorem TimeExtraction.of?_recase (e : Expr) (format zone : String) :
    of? r (e.recase ρ) format zone = of? r e format zone := by
  rw [of?, of?, TimeSource.ofExpr?_recase]

/-- A call of `date_format` is read alike. -/
theorem TimeExtraction.ofFormat?_recase (zone : String) (e : Expr) :
    ofFormat? r zone (e.recase ρ) = ofFormat? r zone e := by
  unfold ofFormat?
  rw [Expr.stripCasts_recase]
  cases e.stripCasts with
  | scalar func args =>
    cases func with
    | dateFormat =>
      rcases args with _ | ⟨time, _ | ⟨format, _ | ⟨zone, _ | _⟩⟩⟩
      · rfl
      · rfl
      · simp only [Expr.recase, Expr.recaseAll, Expr.stringLiteral?_recase, of?_recase]
      · simp only [Expr.recase, Expr.recaseAll, Expr.stringLiteral?_recase, of?_recase]
      · rfl
    | toTimestamp | dateTrunc | year | month | dayOfMonth | hour | minute | upper | lower | concat
    | substring | coalesce => rfl
  | column | literal | aliased | cast | binary | aggregate => rfl

/-- A call that takes a part of a point in time is read alike. -/
theorem TimeExtraction.ofPart?_recase (zone : String) (e : Expr) :
    ofPart? r zone (e.recase ρ) = ofPart? r zone e := by
  unfold ofPart?
  rw [Expr.stripAlias_recase, Expr.stripCasts_recase]
  cases e.stripAlias.stripCasts with
  | scalar func args =>
    rcases args with _ | ⟨time, _ | _⟩
    · rfl
    · simp only [Expr.recase, Expr.recaseAll, of?_recase]
    · rfl
  | column | literal | aliased | cast | binary | aggregate => rfl

end Time

namespace Scope

/-- Surroundings that differ from others by the case of names. -/
structure Recases (ρ : Recasing) (s s' : Scope) : Prop where
  settings : s'.settings = s.settings
  row? : s'.row? = s.row?.map (ExpansionRow.recase ρ)
  storeColumns : ∀ id, s'.storeColumns.get? id = (s.storeColumns.get? id).map ρ.rename

namespace Recases

variable {ρ : Recasing} {s s' : Scope}

/-- Columns are named after the same store columns. -/
theorem withStoreNames (recases : s.Recases ρ s') (e : Expr) :
    s'.withStoreNames (e.recase ρ) = (s.withStoreNames e).recase ρ := by
  refine e.mapColumns_recase ρ fun attr => ?_
  have found : s'.storeColumns.get? (attr.recase ρ).id = _ := recases.storeColumns attr.id
  rw [storeColumn?, storeColumn?, found, Option.map_map, Option.map_map]
  rfl

/-- An expression is the same over the relation of the store. -/
theorem resolve (recases : s.Recases ρ s') (e : Expr) :
    s'.resolve (e.recase ρ) = (s.resolve e).recase ρ := by
  unfold Scope.resolve Scope.inRowOf
  rw [recases.row?, ← recases.withStoreNames]
  cases s.row? with
  | none => rfl
  | some x => exact congrArg s'.withStoreNames (x.resolve_recase ρ e)

/-- The single argument of an aggregate reads the same store column. -/
theorem argumentColumn? (recases : s.Recases ρ s') (q : Query) (call : AggregateCall) :
    s'.argumentColumn? q (call.recase ρ) = s.argumentColumn? q call := by
  have single : (call.recase ρ).singleArg? = call.singleArg?.map (Expr.recase ρ) := by
    unfold AggregateCall.singleArg? AggregateCall.recase
    rcases call.args with _ | ⟨arg, _ | _⟩ <;> rfl
  have reads (arg : Expr) : s'.column? q (arg.recase ρ) = s.column? q arg := by
    unfold Scope.column?
    rw [recases.resolve, Expr.stripNumericCasts_recase, Expr.column?_recase, Option.bind_map]
    congr 1
    funext attr
    exact q.relation.column?_congr (ρ.fold attr.name)
  rw [Scope.argumentColumn?, Scope.argumentColumn?, single, Option.bind_map]
  congr 1
  funext arg
  exact reads arg

/-- The same aggregates count rows. -/
theorem countsRows (recases : s.Recases ρ s') (call : AggregateCall) :
    s'.countsRows (call.recase ρ) = s.countsRows call := by
  unfold Scope.countsRows AggregateCall.recase
  rcases call.args with _ | ⟨arg, _ | _⟩
  · rfl
  · simp only [List.map_cons, List.map_nil, recases.resolve, Expr.stripAlias_recase,
      Expr.stripCasts_recase]
    cases (s.resolve arg).stripAlias.stripCasts with
    | column attr =>
      change (ρ.rename attr.name == "1") = (attr.name == "1")
      rw [Bool.eq_iff_iff, beq_iff_eq, beq_iff_eq, ρ.eq_one_iff]
    | literal | aliased | cast | scalar | binary | aggregate => rfl
  · rfl

/-- A grouping expression becomes the same dimension. -/
theorem dimensionOf? (recases : s.Recases ρ s') (r : Relation) (group expanded : Expr) :
    s'.dimensionOf? r (group.recase ρ) (expanded.recase ρ) = s.dimensionOf? r group expanded := by
  unfold Scope.dimensionOf?
  rw [recases.settings, recases.withStoreNames, Expr.stripAlias_recase, Expr.column?_recase,
    TimeExtraction.ofFormat?_recase, TimeExtraction.ofPart?_recase, Option.bind_map]
  simp only [Function.comp_def, Attribute.recase, r.dimension?_recase]

/-- An aggregate becomes the same aggregations. -/
theorem computationOf? (recases : s.Recases ρ s') (r : Relation) (call : AggregateCall) :
    s'.computationOf? r (call.recase ρ) = s.computationOf? r call := by
  rw [Scope.computationOf?, recases.countsRows, recases.argumentColumn?]
  rfl

end Recases

end Scope

/-- Unless the grouping expressions have aggregates, the store is asked for the same. -/
theorem Rule.contentOf?_recase (rule : Rule) {ρ : Recasing} {source source' : Source}
    (recases : source.Recases ρ source') {set : GroupingSet}
    (pure : ∀ g ∈ set.groupBy, g.calls = []) :
    rule.contentOf? source' (set.recase ρ) = rule.contentOf? source set := by
  have scopes : (rule.scope source set).Recases ρ (rule.scope source' (set.recase ρ)) :=
    ⟨rfl, rfl, recases.storeColumns⟩
  dsimp only [contentOf?]
  rw [recases.query, set.dimensions_recase, set.calls_recase ρ pure, List.mapM_map, List.mapM_map]
  simp only [Function.comp_def, Prod.map, scopes.withStoreNames, scopes.dimensionOf?,
    scopes.computationOf?]

/-- The grouping expressions of a plan whose root is an aggregate. -/
def Plan.groupExprs : Plan → List Expr
  | aggregate _ groupBy _ => groupBy
  | _ => []

/-- Unless the grouping expressions have aggregates, a grouping set is lowered to a query that asks
for the same, with the same constants. -/
theorem Rule.rel_lowerSet?_recase {rule : Rule} (scriptless : rule.scripts = .none) {ρ : Recasing}
    {source source' : Source} (recases : source.Recases ρ source') {r : Relation}
    (empty : source.query = { relation := r }) {set : GroupingSet}
    (pure : ∀ g ∈ set.groupBy, g.calls = []) :
    Option.Rel (fun pushed pushed' => pushed'.query.content = pushed.query.content ∧
        pushed'.overrides = pushed.overrides)
      (rule.lowerSet? source set) (rule.lowerSet? source' (set.recase ρ)) := by
  have contents : Option.Rel (fun content content' => content' = content)
      (rule.contentOf? source set) (rule.contentOf? source' (set.recase ρ)) := by
    rw [rule.contentOf?_recase recases pure]
    cases rule.contentOf? source set with
    | none => exact .none
    | some content => exact .some rfl
  refine Run.rel_imp (rel_lowerSet? scriptless empty (recases.query.trans empty) contents) ?_
  rintro pushed pushed' ⟨content, constants, constants'⟩
  exact ⟨content, constants'.trans constants.symm⟩

/-- Unless grouping expressions have aggregates, the case of the letters in the names of columns
does not decide without scripts whether a plan is pushed, nor what its queries ask for, nor which
constants the host fills in. -/
theorem pushAggregate?_recase (catalog : Catalog) (settings : Settings) (ρ : Recasing) {plan : Plan}
    (pure : ∀ g ∈ plan.groupExprs, g.calls = []) :
    Option.Rel (fun p p' => List.Forall₂ (fun set set' =>
        set'.query.content = set.query.content ∧ set'.overrides = set.overrides) p.sets p'.sets)
      (pushAggregate? catalog .none settings plan)
      (pushAggregate? catalog .none settings (plan.recase ρ)) := by
  cases plan with
  | scan | filter | project | expand => exact .none
  | aggregate input groupBy outputs =>
    refine Rule.rel_push? ?_ ?_
    · rw [Expansion.ofPlan?_recase, Option.isSome_map]
    rw [Plan.sourcePlan_recase, Plan.groupingSets_recase]
    have sources := Source.rel_ofPlan?_recase ρ catalog input.sourcePlan
    have empty (source : Source) (known : Source.ofPlan? catalog input.sourcePlan = some source) :=
      Source.query_eq_of_ofPlan? known
    change Option.Rel _ (Source.ofPlan? catalog _) (Source.ofPlan? catalog _)
    generalize Source.ofPlan? catalog input.sourcePlan = source?,
      Source.ofPlan? catalog (input.sourcePlan.recase ρ) = source?' at sources empty ⊢
    cases sources with
    | none => exact .none
    | @some source source' recases =>
      obtain ⟨r, query⟩ := empty source rfl
      refine .some ⟨recases.isComplete, ?_⟩
      rw [List.forall₂_map_right_iff, List.forall₂_same]
      intro set member
      obtain ⟨sameGroups, -, -⟩ := Plan.mem_groupingSets member
      exact Rule.rel_lowerSet?_recase rfl recases query (by rw [sameGroups]; exact pure)

namespace Sales

/-- Other spellings of the country and of the number of the grouping set. -/
def respelled : Recasing where
  rename name :=
    if name = "country" then "Country"
    else if name = "spark_grouping_id" then "SPARK_GROUPING_ID" else name
  fold name := by
    split
    · rename_i isCountry
      rw [isCountry]
      decide
    · split
      · rename_i isMarker
        rw [isMarker]
        decide
      · rfl

end Sales

/-- With other spellings, a rollup is pushed to queries that ask for the same. -/
theorem pushAggregate?_respelled :
    (∀ g ∈ Sales.rollup.groupExprs, g.calls = []) ∧
      ∃ p p', pushAggregate? Sales.catalog .none .allEnabled Sales.rollup = some p ∧
        pushAggregate? Sales.catalog .none .allEnabled (Sales.rollup.recase Sales.respelled) =
          some p' ∧
        p.sets.length = 3 ∧ List.Forall₂ (fun set set' =>
          set'.query.content = set.query.content ∧ set'.overrides = set.overrides)
          p.sets p'.sets := by
  have pure : ∀ g ∈ Sales.rollup.groupExprs, g.calls = [] := by
    intro g given
    obtain ⟨attr, -, rfl⟩ := List.mem_map.1 given
    rfl
  have alike := pushAggregate?_recase Sales.catalog .allEnabled Sales.respelled pure
  obtain ⟨p, pushed, sets⟩ := Sales.exists_pushed
  rw [pushed] at alike
  obtain ⟨p', pushed', each⟩ := Run.exists_of_rel alike
  exact ⟨pure, p, p', pushed, pushed', sets, each⟩

end Rollup
