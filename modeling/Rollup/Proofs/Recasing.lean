import Rollup.Proofs.Results

/-!
# Names in another case

The parts of a plan with the names of their columns spelled in another case. Expressions keep their
shape, their types and their identities; what a row of an expansion says of them is said of their
new spellings; so a grouping set in another case has the same dimensions and the same constants.

Spelling does matter to whether an output repeats a grouping expression: expressions that differ in
the spelling of a column are not the same. An output that repeats one has no aggregate for the store
to compute, unless the grouping expressions have aggregates themselves, and so the aggregates of the
set are the same as well.
-/

namespace Rollup

/-- A change of names that leaves all but the case of the letters A to Z alone. -/
structure Recasing where
  rename : String → String
  fold : ∀ name, Text.foldAscii (rename name) = Text.foldAscii name

namespace Recasing

variable (ρ : Recasing)

/-- A name stays the same as any other. -/
theorem sameName (a b : String) : Text.sameName (ρ.rename a) b = Text.sameName a b := by
  rw [Text.sameName, Text.sameName, ρ.fold]

/-- The name that stands for every row stays as it is, and no other name becomes it. -/
theorem eq_one_iff (name : String) : ρ.rename name = "1" ↔ name = "1" := by
  have digit (c : Char) : c.toLower = '1' ↔ c = '1' := by
    constructor
    · intro folds
      unfold Char.toLower at folds
      split at folds
      · rename_i upper
        have value : (c.val + 32).toNat = 49 := congrArg (fun c : Char => c.val.toNat) folds
        have low : 65 ≤ c.val.toNat := upper.1
        have high : c.val.toNat ≤ 90 := upper.2
        have step : (32 : UInt32).toNat = 32 := rfl
        rw [UInt32.toNat_add] at value
        omega
      · exact folds
    · rintro rfl
      rfl
  have folded (name : String) : name = "1" ↔ Text.foldAscii name = ['1'] := by
    rw [Text.foldAscii, List.map_eq_singleton_iff, ← String.toList_inj]
    simp only [digit]
    constructor
    · intro isOne
      exact ⟨'1', isOne, rfl⟩
    · rintro ⟨c, isOne, rfl⟩
      exact isOne
  rw [folded, folded name, ρ.fold]

end Recasing

/-- The column in another case. -/
def Attribute.recase (ρ : Recasing) (attr : Attribute) : Attribute :=
  { attr with name := ρ.rename attr.name }

/-- The number of grouping sets is known by its name in any case. -/
theorem Attribute.isGroupingId_recase (ρ : Recasing) (attr : Attribute) :
    (attr.recase ρ).isGroupingId = attr.isGroupingId := by
  rw [isGroupingId, isGroupingId, recase, ρ.sameName, ρ.sameName]

namespace Expr

mutual

/-- The expression with its names in another case. -/
def recase (ρ : Recasing) : Expr → Expr
  | column attr => column (attr.recase ρ)
  | literal value type => literal value type
  | aliased inner name id => aliased (inner.recase ρ) (ρ.rename name) id
  | cast inner type => cast (inner.recase ρ) type
  | scalar func args => scalar func (recaseAll ρ args)
  | binary op left right => binary op (left.recase ρ) (right.recase ρ)
  | aggregate head args => aggregate head (recaseAll ρ args)

/-- The expressions of a list with their names in another case. -/
def recaseAll (ρ : Recasing) : List Expr → List Expr
  | [] => []
  | e :: es => e.recase ρ :: recaseAll ρ es

end

/-- Names in a list change in each expression. -/
@[simp] theorem recaseAll_eq_map (ρ : Recasing) (es : List Expr) :
    recaseAll ρ es = es.map (recase ρ) := by
  induction es with
  | nil => rw [recaseAll, List.map_nil]
  | cons e es ih => rw [recaseAll, List.map_cons, ih]

end Expr

/-- The aggregate with its names in another case. -/
def AggregateCall.recase (ρ : Recasing) (call : AggregateCall) : AggregateCall :=
  { call with args := call.args.map (Expr.recase ρ) }

/-- An aggregate is an expression in any case. -/
theorem AggregateCall.toExpr_recase (ρ : Recasing) (call : AggregateCall) :
    (call.recase ρ).toExpr = call.toExpr.recase ρ := by
  rw [toExpr, toExpr, Expr.recase, Expr.recaseAll_eq_map]
  rfl

namespace Expr

variable (ρ : Recasing) (e : Expr)

/-- Names have no part in types. -/
@[simp] theorem dataType_recase : (e.recase ρ).dataType = e.dataType := by
  induction e using induct with
  | step e ih =>
    cases e with
    | column | literal | cast | aggregate => rfl
    | aliased inner => exact ih inner List.mem_cons_self
    | scalar func args =>
      have types : (args.map (recase ρ)).map dataType = args.map dataType := by
        rw [List.map_map]
        exact List.map_congr_left ih
      rw [recase, recaseAll_eq_map, dataType, dataType, dataTypes_eq_map, dataTypes_eq_map, types]
    | binary op left right =>
      rw [recase, dataType, dataType, ih left List.mem_cons_self,
        ih right (List.mem_cons_of_mem left List.mem_cons_self)]

/-- Names have no part in identities. -/
@[simp] theorem outputId?_recase : (e.recase ρ).outputId? = e.outputId? := by
  cases e <;> rfl

/-- Aliases are around the same. -/
theorem stripAlias_recase : (e.recase ρ).stripAlias = e.stripAlias.recase ρ := by
  fun_induction stripAlias e with
  | case1 inner _ _ ih => exact ih
  | case2 e other =>
    cases e with
    | aliased inner name id => exact absurd rfl (other inner name id)
    | column | literal | cast | scalar | binary | aggregate => rfl

/-- Casts are around the same. -/
theorem stripCasts_recase : (e.recase ρ).stripCasts = e.stripCasts.recase ρ := by
  fun_induction stripCasts e with
  | case1 inner _ ih => exact ih
  | case2 e other =>
    cases e with
    | cast inner type => exact absurd rfl (other inner type)
    | column | literal | aliased | scalar | binary | aggregate => rfl

/-- Casts between numeric types are around the same. -/
theorem stripNumericCasts_recase :
    (e.recase ρ).stripNumericCasts = e.stripNumericCasts.recase ρ := by
  fun_induction stripNumericCasts e with
  | case1 inner target numeric ih =>
    have numeric' : (inner.recase ρ).isNumericCast target = true := by
      rw [isNumericCast, dataType_recase]
      exact numeric
    rw [recase, stripNumericCasts, if_pos numeric', ih]
  | case2 inner target other =>
    have other' : ¬ (inner.recase ρ).isNumericCast target = true := by
      rw [isNumericCast, dataType_recase]
      exact other
    rw [recase, stripNumericCasts, if_neg other']
  | case3 e other =>
    cases e with
    | cast inner type => exact absurd rfl (other inner type)
    | column | literal | aliased | scalar | binary | aggregate => rfl

/-- A null constant has no name. -/
theorem isNullLiteral_recase : (e.recase ρ).isNullLiteral = e.isNullLiteral := by
  rw [isNullLiteral, isNullLiteral, stripCasts_recase]
  cases e.stripCasts <;> rfl

/-- A text constant has no name. -/
theorem stringLiteral?_recase : (e.recase ρ).stringLiteral? = e.stringLiteral? := by
  rw [stringLiteral?, stringLiteral?, stripCasts_recase]
  cases e.stripCasts <;> rfl

/-- A column is a column in any case. -/
theorem column?_recase : (e.recase ρ).column? = e.column?.map (Attribute.recase ρ) := by
  cases e <;> rfl

/-- The only input of an output is the same column. -/
theorem soleColumn?_recase :
    (e.recase ρ).soleColumn? = e.soleColumn?.map (Attribute.recase ρ) := by
  fun_induction soleColumn? e with
  | case1 attr => rfl
  | case2 inner _ _ ih => exact ih
  | case3 head arg =>
    rw [recase, recaseAll_eq_map, List.map_singleton, soleColumn?, stripNumericCasts_recase,
      column?_recase]
  | case4 e notColumn notAliased notSingle =>
    cases e with
    | column attr => exact absurd rfl (notColumn attr)
    | aliased inner name id => exact absurd rfl (notAliased inner name id)
    | aggregate head args =>
      cases args with
      | nil => rfl
      | cons arg rest =>
        cases rest with
        | nil => exact absurd rfl (notSingle head arg)
        | cons => rfl
    | literal | cast | scalar | binary => rfl

/-- The aggregates of an expression are the same. -/
theorem calls_recase : (e.recase ρ).calls = e.calls.map (AggregateCall.recase ρ) := by
  induction e using induct with
  | step e ih =>
    cases e with
    | column | literal => rfl
    | aliased inner | cast inner => exact ih inner List.mem_cons_self
    | scalar func args =>
      rw [recase, recaseAll_eq_map, calls, calls, callsOf_eq_flatMap, callsOf_eq_flatMap,
        List.flatMap_map, List.map_flatMap]
      exact List.flatMap_congr ih
    | binary op left right =>
      rw [recase, calls, calls, List.map_append, ih left List.mem_cons_self,
        ih right (List.mem_cons_of_mem left List.mem_cons_self)]
    | aggregate head args =>
      rw [recase, recaseAll_eq_map, calls, calls]
      rfl

/-- Aggregates keep their identities, so the first of each stays the first. -/
theorem aggregates_recase :
    (e.recase ρ).aggregates = e.aggregates.map (AggregateCall.recase ρ) := by
  rw [aggregates, calls_recase, distinctBy.map]
  rfl

/-- Replacements that are named in another case are made in an expression that is. -/
theorem mapColumns_recase {f f' : Attribute → Option Expr}
    (same : ∀ attr, f' (attr.recase ρ) = (f attr).map (recase ρ)) :
    (e.recase ρ).mapColumns f' = (e.mapColumns f).recase ρ := by
  induction e using induct with
  | step e ih =>
    have args (es : List Expr)
        (each : ∀ c ∈ es, (c.recase ρ).mapColumns f' = (c.mapColumns f).recase ρ) :
        (es.map (recase ρ)).map (mapColumns f') = (es.map (mapColumns f)).map (recase ρ) := by
      rw [List.map_map, List.map_map]
      exact List.map_congr_left each
    cases e with
    | column attr =>
      rw [recase, mapColumns, mapColumns, same]
      cases f attr <;> rfl
    | literal => rfl
    | aliased inner | cast inner =>
      rw [recase, mapColumns, mapColumns, ih inner List.mem_cons_self, recase]
    | scalar func es | aggregate func es =>
      rw [recase, recaseAll_eq_map, mapColumns, mapColumns, mapColumnsOf_eq_map,
        mapColumnsOf_eq_map, args es ih, recase, recaseAll_eq_map]
    | binary op left right =>
      rw [recase, mapColumns, mapColumns, ih left List.mem_cons_self,
        ih right (List.mem_cons_of_mem left List.mem_cons_self), recase]

/-- The constant of the marker has no name. -/
theorem markerOverride?_recase (value? : Option Expr) :
    (e.recase ρ).markerOverride? (value?.map (recase ρ)) = e.markerOverride? value? := by
  unfold markerOverride?
  rw [soleColumn?_recase, dataType_recase]
  cases e.soleColumn? with
  | none => rfl
  | some attr =>
    simp only [Option.map_some, Attribute.isGroupingId_recase]
    cases value? with
    | none => rfl
    | some value => cases value <;> rfl

/-- A typed null has no name. -/
theorem nullOverride?_recase (value? : Option Expr) :
    (e.recase ρ).nullOverride? (value?.map (recase ρ)) = e.nullOverride? value? := by
  unfold nullOverride?
  rw [soleColumn?_recase, dataType_recase]
  cases e.soleColumn? with
  | none => rfl
  | some attr =>
    cases value? with
    | none => rfl
    | some value => simp only [Option.map_some, isNullLiteral_recase]

/-- The constant that is filled in for an output has no name. -/
theorem override?_recase (value? : Option Expr) :
    (e.recase ρ).override? (value?.map (recase ρ)) = e.override? value? := by
  rw [override?, override?, markerOverride?_recase, nullOverride?_recase]

end Expr

namespace ExpansionRow

/-- The row with its names in another case. -/
def recase (ρ : Recasing) (x : ExpansionRow) : ExpansionRow where
  project? := x.project?.map (List.map (Expr.recase ρ))
  output := x.output.map (Attribute.recase ρ)
  row := x.row.map (Expr.recase ρ)

variable (ρ : Recasing) (x : ExpansionRow)

/-- A column of the expansion is found by its identity. -/
theorem index?_recase (id : ExprId) : (x.recase ρ).index? id = x.index? id := by
  rw [index?, recase, List.findIdx?_map]
  rfl

/-- A column has the same value. -/
theorem value?_recase (attr : Attribute) :
    (x.recase ρ).value? (attr.recase ρ) = (x.value? attr).map (Expr.recase ρ) := by
  rw [value?, index?_recase, value?, Option.map_bind]
  congr 1
  funext place
  exact List.getElem?_map

/-- An expression of the projection is found by its identity. -/
theorem projected?_recase (attr : Attribute) :
    (x.recase ρ).projected? (attr.recase ρ) = (x.projected? attr).map (Expr.recase ρ) := by
  unfold projected? recase
  cases x.project? with
  | none => rfl
  | some expressions =>
    rw [Option.map_some, Option.bind_some, Option.bind_some, List.find?_map]
    congr 2
    funext e
    exact congrArg (fun id? => decide (id? = some attr.id)) (e.outputId?_recase ρ)

/-- A column has the same place. -/
theorem position?_recase (attr : Attribute) :
    (x.recase ρ).position? (attr.recase ρ) = x.position? attr := by
  unfold position?
  rw [projected?_recase]
  cases x.projected? attr with
  | none => exact index?_recase ρ x attr.id
  | some e =>
    simp only [Option.map_some, Expr.stripAlias_recase, Expr.column?_recase, Option.bind_map]
    congr 1
    funext inner
    exact index?_recase ρ x inner.id

/-- A column stands for the same. -/
theorem resolveColumn?_recase (attr : Attribute) :
    (x.recase ρ).resolveColumn? (attr.recase ρ) = (x.resolveColumn? attr).map (Expr.recase ρ) := by
  unfold resolveColumn?
  rw [projected?_recase]
  cases x.projected? attr with
  | none => exact value?_recase ρ x attr
  | some e =>
    have inner := e.stripAlias.mapColumns_recase ρ (x.value?_recase ρ)
    simp only [Option.map_some, Expr.stripAlias_recase, inner]

/-- An expression stands for the same. -/
theorem resolve_recase (e : Expr) : (x.recase ρ).resolve (e.recase ρ) = (x.resolve e).recase ρ :=
  e.mapColumns_recase ρ (x.resolveColumn?_recase ρ)

/-- An output has the same parts. -/
theorem parts_recase (e : Expr) :
    parts (e.recase ρ) = (parts e).map fun part => (part.1, part.2.recase ρ) := by
  unfold parts
  rw [Expr.outputId?_recase]
  cases e.outputId? with
  | none => rfl
  | some id =>
    simp only [Expr.aggregates_recase, List.map_map, List.map_cons, Function.comp_def,
      AggregateCall.toExpr_recase]
    rfl

/-- The places of the only inputs are the same. -/
theorem positions_recase (outputs : List Expr) :
    (x.recase ρ).positions (outputs.map (Expr.recase ρ)) = x.positions outputs := by
  unfold positions
  rw [List.flatMap_map]
  congr 2
  funext e
  rw [parts_recase, List.filterMap_map]
  congr 1
  funext part
  change Option.map _ ((part.2.recase ρ).soleColumn?.bind (x.recase ρ).position?) = _
  rw [Expr.soleColumn?_recase, Option.bind_map]
  congr 2
  funext attr
  exact position?_recase ρ x attr

/-- The value at a place is the same. -/
theorem valueAt?_recase (places : Table ExprId Nat) (id : ExprId) :
    (x.recase ρ).valueAt? places id = (x.valueAt? places id).map (Expr.recase ρ) := by
  rw [valueAt?, valueAt?, Option.map_bind]
  congr 1
  funext place
  exact List.getElem?_map

/-- The constants for one output are the same, where it reads the same values. -/
theorem outputOverrides_recase {value? value?' : ExprId → Option Expr}
    (same : ∀ id, value?' id = (value? id).map (Expr.recase ρ)) (e : Expr) :
    outputOverrides value?' (e.recase ρ) = outputOverrides value? e := by
  unfold outputOverrides
  rw [Expr.outputId?_recase]
  cases e.outputId? with
  | none => rfl
  | some id =>
    simp only [same, Expr.override?_recase, Expr.aggregates_recase, List.filterMap_map,
      Function.comp_def, AggregateCall.toExpr_recase]
    cases e.override? (value? id) with
    | some constant => rfl
    | none =>
      refine List.filterMap_congr fun call _ => ?_
      change Option.map _ ((call.toExpr.recase ρ).nullOverride? ((value? call.id).map _)) = _
      rw [Expr.nullOverride?_recase]
      rfl

/-- The constants for the outputs are the same. -/
theorem overrides_recase (outputs : List Expr) :
    (x.recase ρ).overrides (outputs.map (Expr.recase ρ)) = x.overrides outputs := by
  dsimp only [overrides]
  rw [positions_recase, List.flatMap_map]
  congr 2
  funext e
  exact outputOverrides_recase ρ (x.valueAt?_recase ρ _) e

end ExpansionRow

namespace GroupingSet

/-- The grouping set with its names in another case. -/
def recase (ρ : Recasing) (set : GroupingSet) : GroupingSet where
  groupBy := set.groupBy.map (Expr.recase ρ)
  expanded := set.expanded.map (Expr.recase ρ)
  aggregates := set.aggregates.map (Expr.recase ρ)
  row? := set.row?.map (ExpansionRow.recase ρ)
  overrides := set.overrides

variable (ρ : Recasing) (set : GroupingSet)

/-- The grouping set of a row is made of the names of the row. -/
theorem ofRow_recase (groupBy outputs : List Expr) (x : ExpansionRow) :
    ofRow (groupBy.map (Expr.recase ρ)) (outputs.map (Expr.recase ρ)) (x.recase ρ) =
      (ofRow groupBy outputs x).recase ρ := by
  unfold ofRow recase
  rw [x.overrides_recase, List.map_map, List.map_map]
  congr 1
  exact List.map_congr_left fun g _ => x.resolve_recase ρ g

/-- A marker is a marker in any case. -/
theorem isMarker_recase (g : Expr) : isMarker (g.recase ρ) = isMarker g := by
  unfold isMarker
  rw [Expr.stripAlias_recase]
  cases g.stripAlias with
  | column attr => exact attr.isGroupingId_recase ρ
  | literal | aliased | cast | scalar | binary | aggregate => rfl

/-- The store must group by the same. -/
theorem dimensions_recase : (set.recase ρ).dimensions =
    set.dimensions.map (Prod.map (Expr.recase ρ) (Expr.recase ρ)) := by
  unfold dimensions recase
  rw [List.zip_map, List.filter_map]
  congr 1
  refine List.filter_congr fun pair _ => ?_
  change (!isMarker (pair.1.recase ρ) && !(pair.2.recase ρ).isNullLiteral) = _
  rw [isMarker_recase, Expr.isNullLiteral_recase]

/-- The set requires the same aggregates. -/
theorem required_recase :
    (set.recase ρ).required = set.required.map (AggregateCall.recase ρ) := by
  have overridden : (set.recase ρ).isOverridden = set.isOverridden := rfl
  have outputs : (set.recase ρ).aggregates = set.aggregates.map (Expr.recase ρ) := rfl
  unfold required
  rw [overridden, outputs, List.filter_map, List.flatMap_map]
  simp only [Function.comp_def, Expr.outputId?_recase, Expr.calls_recase, List.filter_map]
  rw [← List.map_flatMap, distinctBy.map]
  rfl

/-- Unless the grouping expressions have aggregates, the store must compute the same. -/
theorem calls_recase (pure : ∀ g ∈ set.groupBy, g.calls = []) :
    (set.recase ρ).calls = set.calls.map (AggregateCall.recase ρ) := by
  have pure' : ∀ g ∈ (set.recase ρ).groupBy, g.calls = [] := by
    intro g given
    obtain ⟨original, listed, rfl⟩ := List.mem_map.1 given
    rw [Expr.calls_recase, pure original listed, List.map_nil]
  rw [calls_eq_required pure', calls_eq_required pure, required_recase]

end GroupingSet

namespace Plan

/-- The plan with the names of its columns in another case. -/
def recase (ρ : Recasing) : Plan → Plan
  | scan table output => scan table (output.map (Attribute.recase ρ))
  | filter input predicate => filter (input.recase ρ) (predicate.recase ρ)
  | project input expressions => project (input.recase ρ) (expressions.map (Expr.recase ρ))
  | expand input projections output =>
    expand (input.recase ρ) (projections.map (List.map (Expr.recase ρ)))
      (output.map (Attribute.recase ρ))
  | aggregate input groupBy outputs =>
    aggregate (input.recase ρ) (groupBy.map (Expr.recase ρ)) (outputs.map (Expr.recase ρ))

end Plan

namespace Expansion

/-- The expansion with its names in another case. -/
def recase (ρ : Recasing) (x : Expansion) : Expansion where
  project? := x.project?.map (List.map (Expr.recase ρ))
  projections := x.projections.map (List.map (Expr.recase ρ))
  output := x.output.map (Attribute.recase ρ)
  input := x.input.recase ρ

/-- A plan has the same expansion. -/
theorem ofPlan?_recase (ρ : Recasing) (input : Plan) :
    ofPlan? (input.recase ρ) = (ofPlan? input).map (recase ρ) := by
  cases input with
  | scan | filter | expand | aggregate => rfl
  | project below expressions => cases below <;> rfl

/-- An expansion has the same rows. -/
theorem rows_recase (ρ : Recasing) (x : Expansion) :
    (x.recase ρ).rows = x.rows.map (ExpansionRow.recase ρ) := by
  rw [rows, rows, recase, List.map_map, List.map_map]
  rfl

end Expansion

namespace Plan

variable (ρ : Recasing) (input : Plan)

/-- The same plan must have a source. -/
theorem sourcePlan_recase : (input.recase ρ).sourcePlan = input.sourcePlan.recase ρ := by
  rw [sourcePlan, sourcePlan, Expansion.ofPlan?_recase]
  cases Expansion.ofPlan? input <;> rfl

/-- An aggregate has the same grouping sets. -/
theorem groupingSets_recase (groupBy outputs : List Expr) :
    (input.recase ρ).groupingSets (groupBy.map (Expr.recase ρ)) (outputs.map (Expr.recase ρ)) =
      (input.groupingSets groupBy outputs).map (GroupingSet.recase ρ) := by
  unfold groupingSets GroupingSet.decompose
  rw [Expansion.ofPlan?_recase]
  cases Expansion.ofPlan? input with
  | none => rfl
  | some x =>
    simp only [Option.map_some, Expansion.rows_recase, List.map_map]
    exact List.map_congr_left fun row _ => GroupingSet.ofRow_recase ρ groupBy outputs row

end Plan

end Rollup
