import Rollup.Proofs.Scripts

/-!
# Content of a query

What a query asks of the store, whatever its results are called. Names are chosen with an eye on the
query so far, and nothing else is: without scripts, each grouping expression and each aggregate adds
a content of its own, which does not depend on what was added before it. The content of a lowered
grouping set is therefore made of the contents of its items, and it can be compared item by item.
-/

namespace Rollup

/-- The aggregation without its name. -/
def Aggregation.unnamed : Aggregation → Aggregation
  | native function _ field? => native function "" field?
  | cardinality _ fields => cardinality "" fields
  | hyperUnique _ field => hyperUnique "" field
  | script _ function => script "" function

/-- The column that a dimension reads, and how its value is derived. -/
def Dimension.content (d : Dimension) : String × Option Extraction := (d.source, d.extraction?)

/-- What is asked of the store, apart from the names of the results. -/
structure Content where
  dimensions : List (String × Option Extraction) := []
  /-- Aggregations without names. -/
  aggregations : List Aggregation := []
  /-- Number of post-aggregations. -/
  postAggregations : Nat := 0
  deriving DecidableEq

namespace Content

instance : Append Content where
  append a b :=
    { dimensions := a.dimensions ++ b.dimensions
      aggregations := a.aggregations ++ b.aggregations
      postAggregations := a.postAggregations + b.postAggregations }

/-- Nothing is asked besides. -/
theorem append_empty (c : Content) : c ++ ({} : Content) = c := by
  change Content.mk (_ ++ []) (_ ++ []) _ = _
  rw [List.append_nil, List.append_nil]
  rfl

/-- Nothing is asked before. -/
theorem empty_append (c : Content) : ({} : Content) ++ c = c := by
  change Content.mk _ _ (0 + c.postAggregations) = _
  rw [Nat.zero_add]
  rfl

/-- Contents may be put together in any grouping. -/
theorem append_assoc (a b c : Content) : a ++ b ++ c = a ++ (b ++ c) := by
  change Content.mk (_ ++ _ ++ _) (_ ++ _ ++ _) (_ + _ + _) = _
  rw [List.append_assoc, List.append_assoc, Nat.add_assoc]
  rfl

/-- The contents together, in order. -/
def join : List Content → Content
  | [] => {}
  | part :: rest => part ++ join rest

/-- Appending contents one by one appends them together. -/
theorem foldl_append (start : Content) (parts : List Content) :
    parts.foldl (· ++ ·) start = start ++ join parts := by
  induction parts generalizing start with
  | nil => exact (append_empty start).symm
  | cons part rest ih => rw [List.foldl_cons, ih, join, append_assoc]

/-- Contents may be put together in two parts. -/
theorem join_append (first second : List Content) :
    join (first ++ second) = join first ++ join second := by
  induction first with
  | nil => exact (empty_append _).symm
  | cons part rest ih => rw [List.cons_append, join, ih, join, append_assoc]

end Content

/-- What a query asks of the store. -/
def Query.content (q : Query) : Content where
  dimensions := q.dimensions.map Dimension.content
  aggregations := q.aggregations.map Aggregation.unnamed
  postAggregations := q.postAggregations.length

/-- The choice of a name leaves the content alone. -/
theorem Query.Chooses.content_eq {q : Query} {choice : String × Query}
    (chosen : q.Chooses choice) : choice.2.content = q.content := by
  obtain ⟨k, kept⟩ := chosen.kept
  rw [kept]
  rfl

namespace Scope

/-- An aggregation that does not depend on its name. -/
def IgnoresName (aggregation : String → Aggregation) : Prop :=
  ∀ name, (aggregation name).unnamed = aggregation ""

/-- A row count does not depend on its name. -/
theorem ignoresName_rowCount (r : Relation) : IgnoresName (rowCount r) := by
  intro name
  unfold rowCount
  split <;> rfl

/-- A count of distinct values does not depend on its name. -/
theorem ignoresName_of_distinctCount? {r : Relation} {column : Column}
    {aggregation : String → Aggregation} (found : distinctCount? r column = some aggregation) :
    IgnoresName aggregation := by
  intro name
  unfold distinctCount? at found
  split at found
  · cases found
    rfl
  · split at found
    · cases found
      rfl
    · cases found

/-- Recording a dimension adds it to the content. -/
theorem content_recordDimension {q : Query} {choice : String × Query} (chosen : q.Chooses choice)
    (d : Dimension) (group : Expr) (storeType : StoreType) :
    (recordDimension choice.2 d group storeType).content =
      q.content ++ { dimensions := [d.content] } := by
  rw [← chosen.content_eq]
  change Content.mk (List.map Dimension.content (_ ++ [d])) _ _ = Content.mk (_ ++ [_]) (_ ++ []) _
  rw [List.map_append, List.append_nil]
  rfl

/-- Computing an aggregate by one aggregation adds it to the content. -/
theorem content_addCall (q : Query) (call : AggregateCall) (aggregation : String → Aggregation)
    (ignores : IgnoresName aggregation) (storeType : StoreType) :
    (addCall q call aggregation storeType).content =
      q.content ++ { aggregations := [aggregation ""] } := by
  change Content.mk _ (List.map Aggregation.unnamed (_ ++ [aggregation q.freshAlias.1])) _ =
    Content.mk (_ ++ []) (_ ++ [_]) _
  rw [List.map_append, List.append_nil, List.map_singleton, ignores]
  rfl

/-- Computing an average adds its sum and its count, and one post-aggregation. -/
theorem content_addAverage (q : Query) (call : AggregateCall) (sum count : String → Aggregation)
    (ignoresSum : IgnoresName sum) (ignoresCount : IgnoresName count) :
    (addAverage q call sum count).content =
      q.content ++ { aggregations := [sum "", count ""], postAggregations := 1 } := by
  obtain ⟨sumName, countName, name, aggregations, posts, -⟩ := addAverage_eq q call sum count
  have dimensions : (addAverage q call sum count).dimensions = q.dimensions := rfl
  change Content.mk _ _ _ = Content.mk (_ ++ []) (_ ++ [_, _]) _
  rw [dimensions, aggregations, posts, List.map_append, List.append_nil, List.length_append,
    List.map_cons, List.map_singleton, ignoresSum, ignoresCount]
  rfl

/-- The dimension that a grouping expression becomes without scripts, given what it stands for over
the columns of the store. -/
def dimensionOf? (s : Scope) (r : Relation) (group expanded : Expr) : Option Content :=
  ((expanded.stripAlias.column?.bind fun attr => r.dimension? attr.name).map fun column =>
    { dimensions := [(column.name, none)] }).or <|
  ((TimeExtraction.ofFormat? r s.settings.timezone expanded.stripAlias).or
    (TimeExtraction.ofPart? r s.settings.timezone (s.withStoreNames group))).map fun time =>
      { dimensions := [(time.source, some time.extraction)] }

/-- A count of the distinct values of a column. -/
def distinctContent? (r : Relation) (call : AggregateCall) (argument? : Option Column) :
    Option Content :=
  if countsDistinct call then
    argument?.bind fun column =>
      (distinctCount? r column).map fun aggregation => { aggregations := [aggregation ""] }
  else none

/-- An aggregate over a numeric metric. -/
def metricContent? (r : Relation) (call : AggregateCall) (argument? : Option Column) :
    Option Content :=
  if call.distinct then none
  else argument?.bind fun column =>
    if column.kind == .metric && column.dataType.isNumeric then
      if call.func == .avg then
        (nativeFunction? .sum column.dataType).map fun function =>
          { aggregations := [.native function "" (some column.name), rowCount r ""],
            postAggregations := 1 }
      else if isTypeCompatible call column then
        (nativeFunction? call.func column.dataType).map fun function =>
          { aggregations := [.native function "" (some column.name)] }
      else none
    else none

/-- The aggregations that an aggregate becomes without scripts, given whether it counts rows and
which store column it is taken of. -/
def computation? (r : Relation) (call : AggregateCall) (countsRows : Bool)
    (argument? : Option Column) : Option Content :=
  if call.func == .count && !call.distinct && isNativeMode call && countsRows then
    some { aggregations := [rowCount r ""] }
  else if isNativeMode call then
    (distinctContent? r call argument?).or (metricContent? r call argument?)
  else none

/-- The aggregations that an aggregate becomes without scripts. -/
def computationOf? (s : Scope) (r : Relation) (call : AggregateCall) : Option Content :=
  computation? r call (s.countsRows call) (s.argumentColumn? { relation := r } call)

/-- A grouping expression adds its dimension, whatever the query has. -/
theorem content_nativeGroup? (s : Scope) (q : Query) (group expanded : Expr) :
    (s.nativeGroup? q group expanded).map Query.content =
      (s.dimensionOf? q.relation group expanded).map (q.content ++ ·) := by
  have direct : (directDimension? q group expanded).map Query.content =
      ((expanded.stripAlias.column?.bind fun attr => q.relation.dimension? attr.name).map
        fun column => q.content ++ { dimensions := [(column.name, none)] }) := by
    unfold directDimension?
    rw [Option.map_bind, Option.map_bind]
    congr 1
    funext attr
    change Option.map _ (Option.map _ _) = Option.map _ _
    rw [Option.map_map]
    congr 1
    funext column
    exact content_recordDimension (q.chooses_outputName group.outputName?) _ group _
  have extracted (time : TimeExtraction) : (extractionDimension q group time).content =
      q.content ++ { dimensions := [(time.source, some time.extraction)] } :=
    content_recordDimension (q.chooses_outputName group.outputName?) _ group _
  unfold nativeGroup? dimensionOf? timeFormatDimension? timePartDimension?
  simp only [Option.map_or, direct, Option.map_map, Function.comp_def, extracted]

/-- A grouping expression that is lowered without scripts adds its dimension. -/
theorem content_lowerGroup? {s : Scope} (nothing : ∀ q e kind, s.compile? q e kind = none)
    (q : Query) (group expanded : Expr) :
    (s.lowerGroup? q group expanded).map Query.content =
      (s.dimensionOf? q.relation group (s.withStoreNames expanded)).map (q.content ++ ·) := by
  have unscripted : s.scriptDimension? q group (s.withStoreNames expanded) = none := by
    rw [scriptDimension?, nothing]
    rfl
  rw [lowerGroup?_eq, unscripted, Option.or_none, content_nativeGroup?]

/-- A count of distinct values adds its aggregation. -/
theorem content_distinctCall? (s : Scope) (q : Query) (call : AggregateCall) :
    (s.distinctCall? q call).map Query.content =
      (distinctContent? q.relation call (s.argumentColumn? q call)).map (q.content ++ ·) := by
  unfold distinctCall? distinctContent?
  split
  · cases s.argumentColumn? q call with
    | none => rfl
    | some column =>
      rw [Option.bind_some, Option.bind_some]
      cases found : distinctCount? q.relation column with
      | none => rfl
      | some aggregation =>
        have added := content_addCall q call aggregation (ignoresName_of_distinctCount? found)
          .double
        rw [Option.map_some, Option.map_some, Option.map_some, Option.map_some, added]
  · rfl

/-- An aggregate over a metric adds its aggregations. -/
theorem content_metricCall? (s : Scope) (q : Query) (call : AggregateCall) :
    (s.metricCall? q call).map Query.content =
      (metricContent? q.relation call (s.argumentColumn? q call)).map (q.content ++ ·) := by
  unfold metricCall? metricContent?
  split
  · rfl
  cases s.argumentColumn? q call with
  | none => rfl
  | some column =>
    rw [Option.bind_some, Option.bind_some]
    split
    · split
      · unfold metricAverage?
        cases nativeFunction? .sum column.dataType with
        | none => rfl
        | some function =>
          have added := content_addAverage q call
            (fun name => .native function name (some column.name)) (rowCount q.relation)
            (fun _ => rfl) (ignoresName_rowCount q.relation)
          exact congrArg some added
      · split
        · cases nativeFunction? call.func column.dataType with
          | none => rfl
          | some function =>
            have added := content_addCall q call
              (fun name => .native function name (some column.name))
              (fun _ => rfl) function.storeType
            exact congrArg some added
        · rfl
    · rfl

/-- An aggregate that is lowered without scripts adds its aggregations, whatever the query has. -/
theorem content_lowerCall? {s : Scope} (nothing : ∀ q e kind, s.compile? q e kind = none)
    {call : AggregateCall} (asked : s.isOverridden call.id = false) (q : Query) :
    (s.lowerCall? q call).map Query.content =
      (s.computationOf? q.relation call).map (q.content ++ ·) := by
  rw [lowerCall?_eq, asked, scriptForm?_eq_none nothing, Option.or_none, if_neg Bool.false_ne_true]
  change (s.nativeForm? q call).map Query.content =
    (computation? q.relation call (s.countsRows call) (s.argumentColumn? q call)).map _
  unfold nativeForm? rowCountCall? computation?
  split
  · exact congrArg some (content_addCall q call _ (ignoresName_rowCount q.relation) .long)
  · rw [Option.none_or, nativeCall?]
    split
    · rw [Option.map_or, content_distinctCall?, content_metricCall?, Option.map_or]
    · rfl

variable {s : Scope} {r : Relation} {q : Query}

/-- A run through grouping expressions adds the dimension of each. -/
theorem content_foldlM_lowerGroup? (nothing : ∀ q e kind, s.compile? q e kind = none)
    (pairs : List (Expr × Expr)) (same : q.relation = r) :
    (pairs.foldlM (fun q pair => s.lowerGroup? q pair.1 pair.2) q).map Query.content =
      (pairs.mapM fun pair => s.dimensionOf? r pair.1 (s.withStoreNames pair.2)).map
        fun groups => q.content ++ .join groups := by
  simp only [← Content.foldl_append]
  refine Run.map_foldlM (fun q => q.relation = r) Query.content _ (· ++ ·) ?_ ?_ same
  · intro pair _ q same
    rw [content_lowerGroup? nothing, same]
  · intro pair _ q q' same lowered
    exact (groupedBy_of_lowerGroup? lowered).extended.relation.trans same

/-- A run through aggregates adds the aggregations of each. -/
theorem content_foldlM_lowerCall? (nothing : ∀ q e kind, s.compile? q e kind = none)
    {calls : List AggregateCall} (asked : ∀ call ∈ calls, s.isOverridden call.id = false)
    (same : q.relation = r) :
    (calls.foldlM s.lowerCall? q).map Query.content =
      (calls.mapM (s.computationOf? r)).map fun computed => q.content ++ .join computed := by
  simp only [← Content.foldl_append]
  refine Run.map_foldlM (fun q => q.relation = r) Query.content _ (· ++ ·) ?_ ?_ same
  · intro call given q same
    rw [content_lowerCall? nothing (asked call given), same]
  · intro call given q q' same lowered
    exact (computedBy_of_lowerCall? (asked call given) lowered).extended.relation.trans same

end Scope

namespace Rule

variable {rule : Rule} {source : Source} {set : GroupingSet}

/-- What the store is asked for a grouping set, without scripts: the dimensions of its grouping
expressions and the aggregations of its aggregates, each found alone. -/
def contentOf? (rule : Rule) (source : Source) (set : GroupingSet) : Option Content :=
  let scope := rule.scope source set
  (set.dimensions.mapM fun pair =>
    scope.dimensionOf? source.query.relation pair.1 (scope.withStoreNames pair.2)).bind
      fun groups => (set.calls.mapM (scope.computationOf? source.query.relation)).map
        fun calls => .join (groups ++ calls)

/-- Without scripts, a grouping set is lowered to a query with the content of its items, and it is
not lowered if an item has none. -/
theorem content_lowerSet? (scriptless : rule.scripts = .none) {r : Relation}
    (empty : source.query = { relation := r }) (set : GroupingSet) :
    (rule.lowerSet? source set).map (fun pushed => pushed.query.content) =
      rule.contentOf? source set := by
  have nothing := Scope.compile?_eq_none (s := rule.scope source set) scriptless
  have start : source.query.content = .join [] := by
    rw [empty]
    rfl
  have grouped := Scope.content_foldlM_lowerGroup? nothing set.dimensions
    (q := source.query) rfl
  simp only [start, ← Content.join_append, List.nil_append] at grouped
  dsimp only [lowerSet?, contentOf?]
  cases run : set.dimensions.foldlM
      (fun q pair => (rule.scope source set).lowerGroup? q pair.1 pair.2) source.query with
  | none =>
    rw [run] at grouped
    rw [Option.map_eq_none_iff.1 grouped.symm]
    rfl
  | some middle =>
    rw [run] at grouped
    obtain ⟨groups, found, joined⟩ := Option.map_eq_some_iff.1 grouped.symm
    have same : middle.relation = source.query.relation :=
      (Run.leads Query.Extends.refl Query.Extends.trans
        (fun _ _ _ _ lowered => (Scope.groupedBy_of_lowerGroup? lowered).extended) run).relation
    have computed := Scope.content_foldlM_lowerCall? nothing
      (fun _ given => GroupingSet.not_isOverridden_of_mem_calls given) same
    rw [← joined] at computed
    simp only [found, Option.bind_some, Option.map_map, Content.join_append]
    exact computed

/-- Grouping sets whose contents are related are lowered to queries whose contents are related, with
their own constants, or neither is lowered. -/
theorem rel_lowerSet? (scriptless : rule.scripts = .none) {r r' : Relation} {source' : Source}
    (empty : source.query = { relation := r }) (empty' : source'.query = { relation := r' })
    {set' : GroupingSet} {related : Content → Content → Prop}
    (alike : Option.Rel related (rule.contentOf? source set) (rule.contentOf? source' set')) :
    Option.Rel (fun pushed pushed' => related pushed.query.content pushed'.query.content ∧
      pushed.overrides = set.overrides ∧ pushed'.overrides = set'.overrides)
      (rule.lowerSet? source set) (rule.lowerSet? source' set') := by
  rw [← content_lowerSet? scriptless empty, ← content_lowerSet? scriptless empty'] at alike
  cases lowered : rule.lowerSet? source set with
  | none =>
    cases lowered' : rule.lowerSet? source' set' with
    | none => exact .none
    | some pushed' =>
      rw [lowered, lowered'] at alike
      cases alike
  | some pushed =>
    cases lowered' : rule.lowerSet? source' set' with
    | none =>
      rw [lowered, lowered'] at alike
      cases alike
    | some pushed' =>
      rw [lowered, lowered'] at alike
      exact .some ⟨Option.rel_some_some.1 alike, (lowers_of_lowerSet? lowered).overrides,
        (lowers_of_lowerSet? lowered').overrides⟩

/-- Aggregates whose inputs both have an expansion or both have none, whose sources are complete
together, and whose grouping sets are lowered to related queries, are pushed with related queries,
or neither is pushed. -/
theorem rel_push? {input input' : Plan} {groupBy outputs groupBy' outputs' : List Expr}
    {related : PushedSet → PushedSet → Prop}
    (expanded : (Expansion.ofPlan? input).isSome = (Expansion.ofPlan? input').isSome)
    (alike : Option.Rel (fun source source' => source.isComplete = source'.isComplete ∧
        List.Forall₂ (fun set set' =>
          Option.Rel related (rule.lowerSet? source set) (rule.lowerSet? source' set'))
          (input.groupingSets groupBy outputs) (input'.groupingSets groupBy' outputs'))
      (rule.source? input.sourcePlan) (rule.source? input'.sourcePlan)) :
    Option.Rel (fun p p' => List.Forall₂ related p.sets p'.sets)
      (rule.push? (.aggregate input groupBy outputs))
      (rule.push? (.aggregate input' groupBy' outputs')) := by
  rw [push?_aggregate, push?_aggregate, ← expanded]
  split
  · exact .none
  refine Run.rel_bind alike fun source source' both => ?_
  obtain ⟨complete, sets⟩ := both
  rw [← complete]
  split
  · exact Run.rel_map (Run.rel_mapM sets) fun _ _ each => each
  · exact .none

end Rule

end Rollup
