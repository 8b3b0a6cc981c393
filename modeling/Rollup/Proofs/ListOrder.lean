import Rollup.Proofs.Content

/-!
# Order of grouping expressions and outputs

Grouping expressions and outputs are lists, but their order is a matter of presentation. Without
scripts, and with one expression for each identity, an aggregate whose lists are put in another
order is pushed or refused as before, and each of its queries asks for the same in another order.
The host fills in the same constants, except in one case: an aggregate over the marker may be an
output and stand inside another output as well. Where the row has a null for the marker, the first
is filled in with that null as it stands and the second with a null of the aggregate's own type.
Both are filled in under one identity, so that the later output decides the type.
-/

namespace Rollup

namespace Content

/-- Both ask for the same, in any order. -/
structure Reorders (c c' : Content) : Prop where
  dimensions : c.dimensions.Perm c'.dimensions
  aggregations : c.aggregations.Perm c'.aggregations
  postAggregations : c.postAggregations = c'.postAggregations

/-- Contents that are put together in another order ask for the same. -/
theorem reorders_join {parts others : List Content} (same : parts.Perm others) :
    (join parts).Reorders (join others) := by
  induction same with
  | nil => exact ⟨.refl _, .refl _, rfl⟩
  | cons part _ ih =>
    exact ⟨ih.dimensions.append_left _, ih.aggregations.append_left _,
      congrArg (part.postAggregations + ·) ih.postAggregations⟩
  | swap first second rest =>
    exact ⟨List.perm_append_comm_assoc _ _ _, List.perm_append_comm_assoc _ _ _,
      Nat.add_left_comm _ _ _⟩
  | trans _ _ ih ih' =>
    exact ⟨ih.dimensions.trans ih'.dimensions, ih.aggregations.trans ih'.aggregations,
      ih.postAggregations.trans ih'.postAggregations⟩

end Content

/-- An aggregate over the marker that is an output and stands inside another output as well. -/
structure RepeatsMarker (outputs : List Expr) (call : AggregateCall) : Prop where
  marks : ∃ attr, call.toExpr.soleColumn? = some attr ∧ attr.isGroupingId = true
  output : call.toExpr ∈ outputs
  nested : ∃ e ∈ outputs, e ≠ call.toExpr ∧ call ∈ e.calls

/-- Constants for one identity that are equal, or else nulls of an aggregate over the marker that is
repeated, one of them of the type of the aggregate. -/
def SameConstant (outputs : List Expr) (id : ExprId) (v w : Expr) : Prop :=
  v = w ∨ ∃ call type, call.id = id ∧ RepeatsMarker outputs call ∧
    (v = .null type ∧ w = .null call.dataType ∨ v = .null call.dataType ∧ w = .null type)

/-- The host fills in the same constants, up to the types of nulls for an aggregate over the marker
that is repeated. -/
def SameConstants (outputs : List Expr) (constants others : Table ExprId Expr) : Prop :=
  ∀ id, Option.Rel (SameConstant outputs id) (constants.get? id) (others.get? id)

/-- Neither of two constants comes first. -/
theorem SameConstant.symm {outputs : List Expr} {id : ExprId} {v w : Expr}
    (same : SameConstant outputs id v w) : SameConstant outputs id w v := by
  rcases same with same | ⟨call, type, isCall, repeated, types⟩
  · exact Or.inl same.symm
  · exact Or.inr ⟨call, type, isCall, repeated, types.symm.imp And.symm And.symm⟩

namespace ExpansionRow

variable {outputs outputs' : List Expr}

/-- The order of the outputs does not matter to the values that they read in a row. -/
theorem valueAt?_positions_perm (x : ExpansionRow) (consistent : ConsistentIds outputs)
    (listed : outputs.Perm outputs') :
    x.valueAt? (x.positions outputs') = x.valueAt? (x.positions outputs) := by
  have places (id : ExprId) : (x.positions outputs).get? id = (x.positions outputs').get? id := by
    refine Table.get?_ofList_perm (listed.flatMap_right _) fun place place' recorded recorded' => ?_
    obtain ⟨part, inside, rfl, found⟩ := exists_part_of_place recorded
    obtain ⟨part', inside', same, found'⟩ := exists_part_of_place recorded'
    rw [consistent part inside part' inside' same, found] at found'
    exact Option.some.inj found'
  funext id
  rw [valueAt?, valueAt?, places]

/-- A constant for an output and one for an aggregate inside an output are the same, or the
aggregate is repeated. -/
theorem sameConstant_of_nested {value? : ExprId → Option Expr} {e e' v w : Expr}
    (given : e ∈ outputs) (given' : e' ∈ outputs) {call : AggregateCall} (inside : call ∈ e'.calls)
    (isCall : e = call.toExpr) (found : e.override? (value? call.id) = some v)
    (filled : (call.id, w) ∈ outputOverrides value? e')
    (null : call.toExpr.nullOverride? (value? call.id) = some w) :
    SameConstant outputs call.id v w := by
  subst isCall
  by_cases other : e' = call.toExpr
  · -- the output itself is filled in, so nothing inside it is
    subst other
    rw [outputOverrides, AggregateCall.outputId?_toExpr] at filled
    simp only [found, List.mem_singleton, Prod.mk.injEq, true_and] at filled
    exact Or.inl filled.symm
  obtain ⟨-, ⟨cell, read, isNull⟩, rfl⟩ := Expr.eq_null_of_nullOverride? null
  rcases Expr.cases_of_override? found with rfl | ⟨attr, value, type, sole, marks, literal, rfl⟩
  · exact Or.inl rfl
  · cases read.symm.trans literal
    cases value with
    | null =>
      exact Or.inr ⟨call, type, rfl, ⟨⟨attr, sole, marks⟩, given, e', given', other, inside⟩,
        Or.inl ⟨rfl, rfl⟩⟩
    | _ => cases isNull

/-- Constants that are listed under one identity are the same, up to a repeated aggregate over the
marker. -/
theorem sameConstant_of_listed (consistent : ConsistentIds outputs)
    {value? : ExprId → Option Expr} {id : ExprId} {v w : Expr}
    (first : (id, v) ∈ outputs.flatMap (outputOverrides value?))
    (second : (id, w) ∈ outputs.flatMap (outputOverrides value?)) :
    SameConstant outputs id v w := by
  obtain ⟨e, given, first⟩ := List.mem_flatMap.1 first
  obtain ⟨e', given', second⟩ := List.mem_flatMap.1 second
  rcases mem_outputOverrides first with ⟨named, found⟩ | ⟨call, inside, rfl, -, found⟩
  · rcases mem_outputOverrides second with ⟨named', found'⟩ | ⟨call, inside, rfl, -, found'⟩
    · have same : e' = e := consistent.part_eq given given' (Expr.mem_identities_self named)
        (Expr.mem_identities_self named') rfl
      rw [same, found] at found'
      exact Or.inl (Option.some.inj found')
    · have same : e = call.toExpr := consistent.part_eq given' given
        (Expr.mem_identities_call inside) (Expr.mem_identities_self named) rfl
      exact sameConstant_of_nested given given' inside same found second found'
  · rcases mem_outputOverrides second with ⟨named', found'⟩ | ⟨call', inside', same, -, found'⟩
    · have same : e' = call.toExpr := consistent.part_eq given given'
        (Expr.mem_identities_call inside) (Expr.mem_identities_self named') rfl
      exact (sameConstant_of_nested given' given inside same found' first found).symm
    · rw [consistent.toExpr_eq given given' inside inside' same, found] at found'
      exact Or.inl (Option.some.inj found')

/-- The order of the outputs does not matter to the constants of a row, up to a repeated aggregate
over the marker. -/
theorem sameConstants_overrides (x : ExpansionRow) (consistent : ConsistentIds outputs)
    (listed : outputs.Perm outputs') :
    SameConstants outputs (x.overrides outputs) (x.overrides outputs') := by
  intro id
  have values := x.valueAt?_positions_perm consistent listed
  have pairs := Table.rel_get?_ofList
    (listed.flatMap_right (outputOverrides (x.valueAt? (x.positions outputs)))) id
  simp only [overrides, values]
  exact Run.rel_imp pairs fun v w both => sameConstant_of_listed consistent both.1 both.2

end ExpansionRow

namespace GroupingSet

/-- Grouping sets with the same grouping expressions and outputs in two orders. -/
structure Reorders (set set' : GroupingSet) : Prop where
  groupBy : set.groupBy.Perm set'.groupBy
  expanded : (set.groupBy.zip set.expanded).Perm (set'.groupBy.zip set'.expanded)
  aggregates : set.aggregates.Perm set'.aggregates
  row? : set'.row? = set.row?
  overrides : SameConstants set.aggregates set.overrides set'.overrides

namespace Reorders

variable {set set' : GroupingSet}

/-- The store must group by the same. -/
theorem dimensions (reorders : set.Reorders set') : set.dimensions.Perm set'.dimensions :=
  reorders.expanded.filter _

/-- Constants are filled in for the same identities. -/
theorem isOverridden (reorders : set.Reorders set') : set'.isOverridden = set.isOverridden := by
  funext id
  have same := reorders.overrides id
  unfold GroupingSet.isOverridden Table.contains
  generalize set.overrides.get? id = value?, set'.overrides.get? id = other? at same
  cases same with
  | none => rfl
  | some => rfl

/-- The same outputs repeat a grouping expression. -/
theorem isGroupReference (reorders : set.Reorders set') :
    set'.isGroupReference = set.isGroupReference := by
  funext e
  unfold GroupingSet.isGroupReference
  split
  · exact reorders.groupBy.any_eq.symm
  · exact reorders.groupBy.any_eq.symm

/-- The store must compute the same aggregates. -/
theorem calls (reorders : set.Reorders set') (consistent : ConsistentIds set.aggregates) :
    set.calls.Perm set'.calls := by
  have computed : set'.isComputed = set.isComputed := by
    funext e
    rw [isComputed, isComputed, reorders.isOverridden, reorders.isGroupReference]
  unfold GroupingSet.calls
  rw [computed, reorders.isOverridden]
  refine distinctBy.perm ?_ ((reorders.aggregates.filter _).flatMap_right _)
  intro call candidate call' candidate' same
  obtain ⟨e, given, within⟩ := exists_output_of_candidate candidate
  obtain ⟨e', given', within'⟩ := exists_output_of_candidate candidate'
  exact AggregateCall.toExpr_injective (consistent.toExpr_eq given' given within' within same)

end Reorders

variable {groupBy groupBy' outputs outputs' : List Expr}

/-- Without an expansion, lists in another order make a reordered grouping set. -/
theorem reorders_plain (groups : groupBy.Perm groupBy') (listed : outputs.Perm outputs') :
    (plain groupBy outputs).Reorders (plain groupBy' outputs') where
  groupBy := groups
  expanded := by
    have paired (gs : List Expr) : gs.zip gs = gs.map fun g => (g, g) := by
      simpa using zip_map_self gs id
    rw [plain, plain, paired, paired]
    exact groups.map _
  aggregates := listed
  row? := rfl
  overrides _ := .none

/-- In a row of an expansion, lists in another order make a reordered grouping set. -/
theorem reorders_ofRow (x : ExpansionRow) (consistent : ConsistentIds outputs)
    (groups : groupBy.Perm groupBy') (listed : outputs.Perm outputs') :
    (ofRow groupBy outputs x).Reorders (ofRow groupBy' outputs' x) where
  groupBy := groups
  expanded := by
    rw [ofRow, ofRow, zip_map_self, zip_map_self]
    exact groups.map _
  aggregates := listed
  row? := rfl
  overrides := x.sameConstants_overrides consistent listed

end GroupingSet

/-- Aggregates with lists in two orders have reordered grouping sets, in the order of the rows. -/
theorem Plan.reorders_groupingSets (input : Plan) {groupBy groupBy' outputs outputs' : List Expr}
    (consistent : ConsistentIds outputs) (groups : groupBy.Perm groupBy')
    (listed : outputs.Perm outputs') :
    List.Forall₂ (fun set set' => set.aggregates = outputs ∧ set.Reorders set')
      (input.groupingSets groupBy outputs) (input.groupingSets groupBy' outputs') := by
  unfold groupingSets GroupingSet.decompose
  split
  · rename_i x _
    rw [List.forall₂_map_left_iff, List.forall₂_map_right_iff, List.forall₂_same]
    exact fun row _ => ⟨rfl, GroupingSet.reorders_ofRow row consistent groups listed⟩
  · exact .cons ⟨rfl, GroupingSet.reorders_plain groups listed⟩ .nil

/-- Without scripts, reordered grouping sets ask for the same, or for nothing both. -/
theorem Rule.reorders_contentOf? (rule : Rule) (source : Source) {set set' : GroupingSet}
    (consistent : ConsistentIds set.aggregates) (reorders : set.Reorders set') :
    Option.Rel Content.Reorders (rule.contentOf? source set) (rule.contentOf? source set') := by
  -- the surroundings differ in the constants alone, and no item is lowered by these
  have scopes : rule.scope source set' =
      { rule.scope source set with overrides := set'.overrides } := by
    rw [scope, reorders.row?]
    rfl
  have groups := Run.mapM_perm (fun pair => (rule.scope source set).dimensionOf?
    source.query.relation pair.1 ((rule.scope source set).withStoreNames pair.2))
    reorders.dimensions
  have calls := Run.mapM_perm ((rule.scope source set).computationOf? source.query.relation)
    (reorders.calls consistent)
  dsimp only [contentOf?]
  rw [scopes]
  refine Run.rel_bind groups fun groups groups' moved => ?_
  exact Run.rel_map calls fun calls calls' moved' => Content.reorders_join (moved.append moved')

/-- Where an identity stands for one expression, the order of the grouping expressions and of the
outputs does not decide without scripts whether an aggregate is pushed. If it is pushed, each query
asks for the same in any order, and the host fills in the same constants; only for an aggregate over
the marker that is an output and stands inside another one, the nulls may differ in type. -/
theorem pushAggregate?_reordered {catalog : Catalog} {settings : Settings} {input : Plan}
    {groupBy groupBy' outputs outputs' : List Expr} (consistent : ConsistentIds outputs)
    (groups : groupBy.Perm groupBy') (listed : outputs.Perm outputs') :
    Option.Rel (fun p p' => List.Forall₂ (fun set set' =>
        set.query.content.Reorders set'.query.content ∧
        SameConstants outputs set.overrides set'.overrides) p.sets p'.sets)
      (pushAggregate? catalog .none settings (.aggregate input groupBy outputs))
      (pushAggregate? catalog .none settings (.aggregate input groupBy' outputs')) := by
  refine Rule.rel_push? rfl ?_
  cases known : (Rule.ofCatalog catalog .none settings).source? input.sourcePlan with
  | none => exact .none
  | some source =>
    obtain ⟨r, empty⟩ := Source.query_eq_of_ofPlan? known
    refine .some ⟨rfl, (input.reorders_groupingSets consistent groups listed).imp ?_⟩
    rintro set set' ⟨rfl, reorders⟩
    have lowered := Rule.rel_lowerSet? rfl empty empty
      (Rule.reorders_contentOf? (.ofCatalog catalog .none settings) source consistent reorders)
    refine Run.rel_imp lowered fun pushed pushed' both => ⟨both.1, ?_⟩
    rw [both.2.1, both.2.2]
    exact reorders.overrides

namespace Sales

/-- The rollup, with its lists backwards. -/
def rollupBackwards : Plan :=
  .aggregate (.expand scan projections output) groupBy.reverse outputs.reverse

/-- Number of the grouping set, in a narrower type. -/
def narrowMarker : Attribute := { marker with dataType := .int32 }

/-- The number of sales with a number of the grouping set. -/
def numbering : AggregateCall :=
  { id := ⟨56⟩, func := .count, dataType := .int64, args := [.column narrowMarker] }

/-- One more than this number. -/
def nextNumbering : Expr :=
  .aliased (.binary .add numbering.toExpr (.literal (.int 1) .int64)) "next" ⟨57⟩

/-- An aggregate by city, in a single grouping set without a number. -/
def unnumbered (outputs : List Expr) : Plan :=
  .aggregate (.expand scan [[.column scannedCity, .null .int32]] [city, narrowMarker])
    [.column city, .column narrowMarker] outputs

/-- The type of what the host fills in for the number of sales with a number, in each grouping
set. -/
def numberingTypes? (outputs : List Expr) : Option (List (Option DataType)) :=
  (pushAggregate? catalog .none .allEnabled (unnumbered outputs)).map fun p =>
    p.sets.map fun set => (set.overrides.get? numbering.id).map Expr.dataType

/-- The number of sales with a number has one identity, inside the other output as well. -/
theorem consistentIds_numbering : ConsistentIds [numbering.toExpr, nextNumbering] := by
  have parts : ∀ part ∈ [numbering.toExpr, nextNumbering].flatMap Expr.identities,
      part = (⟨56⟩, numbering.toExpr) ∨ part = (⟨57⟩, nextNumbering) := by
    intro part listed
    change part ∈ [(⟨56⟩, numbering.toExpr), (⟨56⟩, numbering.toExpr), (⟨57⟩, nextNumbering),
      (⟨56⟩, numbering.toExpr)] at listed
    simp only [List.mem_cons, List.not_mem_nil, or_false] at listed
    tauto
  intro part listed other held same
  rcases parts part listed with rfl | rfl <;> rcases parts other held with rfl | rfl
  · rfl
  · cases same
  · cases same
  · rfl

end Sales

/-- With its lists backwards, a rollup is pushed to queries that ask for the same. -/
theorem pushAggregate?_rollupBackwards :
    ConsistentIds Sales.outputs ∧
      ∃ p p', pushAggregate? Sales.catalog .none .allEnabled Sales.rollup = some p ∧
        pushAggregate? Sales.catalog .none .allEnabled Sales.rollupBackwards = some p' ∧
        p.sets.length = 3 ∧ List.Forall₂ (fun set set' =>
          set.query.content.Reorders set'.query.content ∧
          SameConstants Sales.outputs set.overrides set'.overrides) p.sets p'.sets := by
  have consistent : ConsistentIds Sales.outputs := consistentIds_of_nodup (by decide)
  have alike : Option.Rel _ (pushAggregate? Sales.catalog .none .allEnabled Sales.rollup)
      (pushAggregate? Sales.catalog .none .allEnabled Sales.rollupBackwards) :=
    pushAggregate?_reordered consistent (List.reverse_perm Sales.groupBy).symm
      (List.reverse_perm Sales.outputs).symm
  obtain ⟨p, pushed, sets⟩ := Sales.exists_pushed
  rw [pushed] at alike
  obtain ⟨p', pushed', each⟩ := Run.exists_of_rel alike
  exact ⟨consistent, p, p', pushed, pushed', sets, each⟩

/-- An aggregate over a marker without a number is filled in with a null of one type or of another,
depending on whether it comes before or after an output that has it inside. -/
theorem numberingTypes?_reordered :
    ConsistentIds [Sales.numbering.toExpr, Sales.nextNumbering] ∧
      Sales.numberingTypes? [Sales.numbering.toExpr, Sales.nextNumbering] =
        some [some .int64] ∧
      Sales.numberingTypes? [Sales.nextNumbering, Sales.numbering.toExpr] =
        some [some .int32] :=
  ⟨Sales.consistentIds_numbering, by decide +kernel, by decide +kernel⟩

end Rollup
