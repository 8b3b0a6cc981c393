import Mathlib.Data.List.Nodup
import Rollup.Grouping.Set
import Rollup.Proofs.Columns
import Rollup.Proofs.Table

/-!
# Identities of outputs

Overrides are looked up by identity, so they are right only where an identity stands for one
expression. Where it does, the value that an output reads in a row of an expansion is the one at
the place of its only input, and an aggregate and the output that names it are filled in together.
-/

namespace Rollup

namespace Expr

/-- An output, if it has an identity, and the aggregates inside it, each with its identity. -/
def identities (e : Expr) : List (ExprId × Expr) :=
  (e.outputId?.map fun id => (id, e)).toList ++ e.calls.map fun call => (call.id, call.toExpr)

/-- The aggregate under the aliases of an output is one of its aggregates. -/
theorem calls_stripAlias (e : Expr) : e.stripAlias.calls = e.calls := by
  fun_induction stripAlias e with
  | case1 inner _ _ ih => rw [ih, calls]
  | case2 e other => rfl

/-- An output has the only input of what it names. -/
theorem soleColumn?_stripAlias (e : Expr) : e.stripAlias.soleColumn? = e.soleColumn? := by
  fun_induction stripAlias e with
  | case1 inner _ _ ih => rw [ih, soleColumn?]
  | case2 e other => rfl

/-- The host fills in an output whenever it would fill in what the output names. -/
theorem override?_stripAlias (e : Expr) (rowValue? : Option Expr) :
    e.stripAlias.override? rowValue? = e.override? rowValue? := by
  unfold override? markerOverride? nullOverride?
  rw [soleColumn?_stripAlias, dataType_stripAlias]

/-- The only input of an expression is one of its columns. -/
theorem mem_columns_of_soleColumn? {e : Expr} {attr : Attribute}
    (sole : e.soleColumn? = some attr) : attr ∈ e.columns := by
  fun_induction soleColumn? e with
  | case1 attr =>
    cases sole
    rw [columns]
    exact List.mem_cons_self
  | case2 inner _ _ ih =>
    rw [columns]
    exact ih sole
  | case3 head arg =>
    have bare : arg.stripNumericCasts = .column attr := column?_eq_some_iff.1 sole
    have held : attr ∈ arg.columns := by
      rw [← columns_stripNumericCasts, bare, columns]
      exact List.mem_cons_self
    exact columns_subset_of_child (e := .aggregate head [arg]) List.mem_cons_self held
  | case4 => cases sole

/-- A typed null is filled in only where the row has a null for the only input. -/
theorem eq_null_of_nullOverride? {e v : Expr} {rowValue? : Option Expr}
    (filled : e.nullOverride? rowValue? = some v) :
    (∃ attr, e.soleColumn? = some attr) ∧
      (∃ cell, rowValue? = some cell ∧ cell.isNullLiteral = true) ∧ v = .null e.dataType := by
  unfold nullOverride? at filled
  split at filled
  · rename_i attr cell sole
    split at filled
    · rename_i null
      exact ⟨⟨attr, sole⟩, ⟨cell, rfl, null⟩, (Option.some.inj filled).symm⟩
    · cases filled
  · cases filled

/-- A constant that is filled in for an output is a null of its type, or else the constant that the
row has for the marker from which the output is computed. -/
theorem cases_of_override? {e v : Expr} {rowValue? : Option Expr}
    (filled : e.override? rowValue? = some v) :
    v = .null e.dataType ∨ ∃ attr value type, e.soleColumn? = some attr ∧
      attr.isGroupingId = true ∧ rowValue? = some (.literal value type) ∧
      v = .literal value type := by
  rcases Option.or_eq_some_iff.1 filled with marked | ⟨-, null⟩
  · unfold markerOverride? at marked
    split at marked
    · rename_i attr sole
      split at marked
      · rename_i marks
        split at marked
        · rename_i value type
          exact Or.inr ⟨attr, value, type, sole, marks, rfl, (Option.some.inj marked).symm⟩
        · exact Or.inl (Option.some.inj marked).symm
      · cases marked
    · cases marked
  · exact Or.inl (eq_null_of_nullOverride? null).2.2

/-- A constant is filled in only where the expression has an only input. -/
theorem exists_soleColumn?_of_override? {e v : Expr} {rowValue? : Option Expr}
    (filled : e.override? rowValue? = some v) : ∃ attr, e.soleColumn? = some attr := by
  cases sole : e.soleColumn? with
  | some attr => exact ⟨attr, rfl⟩
  | none =>
    unfold override? markerOverride? nullOverride? at filled
    rw [sole] at filled
    cases filled

/-- Unless the only input numbers the grouping sets, only nulls are filled in. -/
theorem override?_eq_nullOverride? {e : Expr} {attr : Attribute}
    (sole : e.soleColumn? = some attr) (plain : attr.isGroupingId = false)
    (rowValue? : Option Expr) : e.override? rowValue? = e.nullOverride? rowValue? := by
  have unmarked : e.markerOverride? rowValue? = none := by
    unfold markerOverride?
    rw [sole]
    simp only [plain, Bool.false_eq_true, ↓reduceIte]
  rw [override?, unmarked, Option.none_or]

end Expr

/-- Among outputs and the aggregates inside them, the identity stands for the expression alone. -/
def OwnsId (outputs : List Expr) (part : ExprId × Expr) : Prop :=
  ∀ other ∈ outputs.flatMap Expr.identities, other.1 = part.1 → other.2 = part.2

/-- Among outputs and the aggregates inside them, one identity stands for one expression. -/
def ConsistentIds (outputs : List Expr) : Prop :=
  ∀ part ∈ outputs.flatMap Expr.identities, OwnsId outputs part

/-- Different identities are consistent. -/
theorem consistentIds_of_nodup {outputs : List Expr}
    (distinct : ((outputs.flatMap Expr.identities).map Prod.fst).Nodup) :
    ConsistentIds outputs := by
  intro part listed other held same
  rw [List.inj_on_of_nodup_map distinct held listed same]

namespace AggregateCall

/-- An aggregate is known by its expression. -/
theorem toExpr_injective {a b : AggregateCall} (same : a.toExpr = b.toExpr) : a = b := by
  cases a
  cases b
  simp only [toExpr, Expr.aggregate.injEq] at same
  rw [same.1, same.2]

/-- An aggregate has one aggregate in it, itself. -/
@[simp] theorem calls_toExpr (call : AggregateCall) : call.toExpr.calls = [call] := by
  rw [toExpr, Expr.calls]

/-- An aggregate appears under its own identity. -/
@[simp] theorem outputId?_toExpr (call : AggregateCall) : call.toExpr.outputId? = some call.id :=
  rfl

end AggregateCall

namespace Expr

/-- An output that names an aggregate has that aggregate in it. -/
theorem mem_calls_of_stripAlias {e : Expr} {call : AggregateCall}
    (names : e.stripAlias = call.toExpr) : call ∈ e.calls := by
  rw [← calls_stripAlias, names, AggregateCall.calls_toExpr]
  exact List.mem_cons_self

/-- An output that names an aggregate has an identity. -/
theorem exists_outputId?_of_stripAlias {e : Expr} {call : AggregateCall}
    (names : e.stripAlias = call.toExpr) : ∃ id, e.outputId? = some id := by
  cases e with
  | aliased inner name id => exact ⟨id, rfl⟩
  | aggregate head args => exact ⟨head.id, rfl⟩
  | column | literal | cast | scalar | binary => cases names

/-- An output with an identity is one of its identified parts. -/
theorem mem_identities_self {e : Expr} {id : ExprId} (named : e.outputId? = some id) :
    (id, e) ∈ e.identities := by
  refine List.mem_append_left _ ?_
  rw [named]
  exact List.mem_cons_self

/-- An aggregate inside an output is one of its identified parts. -/
theorem mem_identities_call {e : Expr} {call : AggregateCall} (inside : call ∈ e.calls) :
    (call.id, call.toExpr) ∈ e.identities :=
  List.mem_append_right _ (List.mem_map.2 ⟨call, inside, rfl⟩)

/-- The parts by which inputs are looked up are identified parts. -/
theorem mem_identities_of_mem_parts {e : Expr} {part : ExprId × Expr}
    (inside : part ∈ ExpansionRow.parts e) : part ∈ e.identities := by
  unfold ExpansionRow.parts at inside
  split at inside
  · rename_i id named
    rcases List.mem_cons.1 inside with rfl | nested
    · exact mem_identities_self named
    · obtain ⟨call, kept, rfl⟩ := List.mem_map.1 nested
      exact mem_identities_call (distinctBy.mem_of_mem kept)
  · cases inside

/-- The columns of an identified part are columns of the output. -/
theorem columns_subset_of_mem_identities {e : Expr} {part : ExprId × Expr}
    (inside : part ∈ e.identities) : part.2.columns ⊆ e.columns := by
  rcases List.mem_append.1 inside with self | nested
  · obtain ⟨id, -, rfl⟩ := Option.map_eq_some_iff.1 (Option.mem_toList.1 self)
    exact List.Subset.refl _
  · obtain ⟨call, held, rfl⟩ := List.mem_map.1 nested
    exact columns_subset_of_call held

end Expr

/-- Where identities are consistent, an identified part is known by its identity. -/
theorem ConsistentIds.part_eq {outputs : List Expr} (consistent : ConsistentIds outputs)
    {e e' : Expr} (given : e ∈ outputs) (given' : e' ∈ outputs) {part part' : ExprId × Expr}
    (inside : part ∈ e.identities) (inside' : part' ∈ e'.identities) (same : part'.1 = part.1) :
    part'.2 = part.2 :=
  consistent part (List.mem_flatMap.2 ⟨e, given, inside⟩) part'
    (List.mem_flatMap.2 ⟨e', given', inside'⟩) same

/-- Where identities are consistent, an aggregate is known by its identity. -/
theorem ConsistentIds.toExpr_eq {outputs : List Expr} (consistent : ConsistentIds outputs)
    {e e' : Expr} (given : e ∈ outputs) (given' : e' ∈ outputs) {call call' : AggregateCall}
    (inside : call ∈ e.calls) (inside' : call' ∈ e'.calls) (same : call'.id = call.id) :
    call'.toExpr = call.toExpr :=
  consistent.part_eq given given' (Expr.mem_identities_call inside)
    (Expr.mem_identities_call inside') same

namespace ExpansionRow

variable {x : ExpansionRow} {outputs : List Expr}

/-- Value in the row at the place of the only input of an expression. -/
def inputValue? (x : ExpansionRow) (e : Expr) : Option Expr :=
  (e.soleColumn?.bind x.position?).bind fun place => x.row[place]?

/-- An output reads what the expression that it names reads. -/
theorem inputValue?_stripAlias (x : ExpansionRow) (e : Expr) :
    x.inputValue? e.stripAlias = x.inputValue? e := by
  rw [inputValue?, inputValue?, Expr.soleColumn?_stripAlias]

/-- An expression reads the value of its only input. -/
theorem inputValue?_of_soleColumn? {e : Expr} {attr : Attribute}
    (sole : e.soleColumn? = some attr) : x.inputValue? e = x.inputValue? (.column attr) := by
  rw [inputValue?, inputValue?, sole, Expr.soleColumn?]

/-- Where the projection passes a column on, the column stands for the value at its place, or for a
column if the row has none there. -/
theorem resolve_column_of_passed {attr : Attribute}
    (passed : ∀ e, x.projected? attr = some e → ∃ inner, e.stripAlias = .column inner) :
    ∃ inner, x.resolve (.column attr) = (x.inputValue? (.column attr)).getD (.column inner) := by
  unfold resolve inputValue? position?
  rw [Expr.mapColumns, resolveColumn?, Expr.soleColumn?, Option.bind_some]
  cases projected : x.projected? attr with
  | none => exact ⟨attr, rfl⟩
  | some e =>
    obtain ⟨inner, bare⟩ := passed e projected
    refine ⟨inner, ?_⟩
    simp only [bare, Expr.mapColumns, Expr.column?, Option.bind_some, Option.getD_some]
    rfl

/-- A column stands for the value at its place, wherever the row has one. -/
theorem resolve_column_of_inputValue? {attr : Attribute} {cell : Expr}
    (found : x.inputValue? (.column attr) = some cell) : x.resolve (.column attr) = cell := by
  have passed : ∀ e, x.projected? attr = some e → ∃ inner, e.stripAlias = .column inner := by
    intro e projected
    obtain ⟨place, placed, -⟩ := Option.bind_eq_some_iff.1 found
    rw [Expr.soleColumn?, Option.bind_some, position?, projected] at placed
    obtain ⟨inner, bare, -⟩ := Option.bind_eq_some_iff.1 placed
    exact ⟨inner, Expr.column?_eq_some_iff.1 bare⟩
  obtain ⟨inner, same⟩ := resolve_column_of_passed passed
  rw [same, found, Option.getD_some]

/-- A place is recorded for the only input of an identified part. -/
theorem exists_part_of_place {k : ExprId} {place : Nat}
    (recorded : (k, place) ∈ outputs.flatMap (fun e => (parts e).filterMap fun part =>
      (part.2.soleColumn?.bind x.position?).map fun place => (part.1, place))) :
    ∃ part ∈ outputs.flatMap Expr.identities, part.1 = k ∧
      part.2.soleColumn?.bind x.position? = some place := by
  obtain ⟨e, given, recorded⟩ := List.mem_flatMap.1 recorded
  obtain ⟨part, inside, recorded⟩ := List.mem_filterMap.1 recorded
  obtain ⟨place, found, same⟩ := Option.map_eq_some_iff.1 recorded
  obtain ⟨rfl, rfl⟩ := Prod.mk.inj same
  exact ⟨part, List.mem_flatMap.2 ⟨e, given, Expr.mem_identities_of_mem_parts inside⟩, rfl, found⟩

/-- The table of places gives a part that owns its identity the place of its only input. -/
theorem get?_positions {e : Expr} (given : e ∈ outputs) {part : ExprId × Expr}
    (inside : part ∈ parts e) (owns : OwnsId outputs part) :
    (x.positions outputs).get? part.1 = part.2.soleColumn?.bind x.position? := by
  have ofPart : ∀ place,
      (part.1, place) ∈ outputs.flatMap (fun e => (parts e).filterMap fun part =>
        (part.2.soleColumn?.bind x.position?).map fun place => (part.1, place)) →
      part.2.soleColumn?.bind x.position? = some place := by
    intro place recorded
    obtain ⟨part', listed, ids, found⟩ := exists_part_of_place recorded
    rw [← owns part' listed ids, found]
  refine Table.get?_ofList_eq ofPart fun place found => ?_
  refine List.mem_flatMap.2 ⟨e, given, List.mem_filterMap.2 ⟨part, inside, ?_⟩⟩
  rw [found]
  rfl

/-- A part that owns its identity reads the value of its only input. -/
theorem valueAt?_positions {e : Expr} (given : e ∈ outputs) {part : ExprId × Expr}
    (inside : part ∈ parts e) (owns : OwnsId outputs part) :
    x.valueAt? (x.positions outputs) part.1 = x.inputValue? part.2 := by
  rw [valueAt?, get?_positions given inside owns, inputValue?]

/-- An output with an identity is one of its parts. -/
theorem mem_parts_self {e : Expr} {id : ExprId} (named : e.outputId? = some id) :
    (id, e) ∈ parts e := by
  rw [parts, named]
  exact List.mem_cons_self

/-- Constants that the host fills in for an output come from the output itself, or else from the
aggregates inside it. -/
theorem mem_outputOverrides {value? : ExprId → Option Expr} {e : Expr} {k : ExprId}
    {constant : Expr} (listed : (k, constant) ∈ outputOverrides value? e) :
    (e.outputId? = some k ∧ e.override? (value? k) = some constant) ∨
      ∃ call ∈ e.calls, call.id = k ∧ (call.id, call.toExpr) ∈ parts e ∧
        call.toExpr.nullOverride? (value? k) = some constant := by
  unfold outputOverrides at listed
  split at listed
  · cases listed
  · rename_i id named
    split at listed
    · rename_i value found
      obtain ⟨rfl, rfl⟩ := Prod.mk.inj (List.mem_singleton.1 listed)
      exact Or.inl ⟨named, found⟩
    · obtain ⟨call, kept, listed⟩ := List.mem_filterMap.1 listed
      obtain ⟨value, found, same⟩ := Option.map_eq_some_iff.1 listed
      obtain ⟨rfl, rfl⟩ := Prod.mk.inj same
      refine Or.inr ⟨call, distinctBy.mem_of_mem kept, rfl, ?_, found⟩
      rw [parts, named]
      exact List.mem_cons_of_mem _ (List.mem_map.2 ⟨call, kept, rfl⟩)

/-- The host fills in an output that owns its identity, if the row has a constant for its only
input. -/
theorem mem_overrides_self {e : Expr} (given : e ∈ outputs) {id : ExprId}
    (named : e.outputId? = some id) (owns : OwnsId outputs (id, e)) {constant : Expr}
    (filled : e.override? (x.inputValue? e) = some constant) :
    (id, constant) ∈ outputs.flatMap (outputOverrides (x.valueAt? (x.positions outputs))) := by
  have own := valueAt?_positions (x := x) given (mem_parts_self named) owns
  refine List.mem_flatMap.2 ⟨e, given, ?_⟩
  unfold outputOverrides
  rw [named]
  simp only [own, filled, List.mem_singleton]

/-- An output without aggregates that owns its identity is filled in by the value of its only
input. -/
theorem get?_overrides {e : Expr} (given : e ∈ outputs) {id : ExprId}
    (named : e.outputId? = some id) (owns : OwnsId outputs (id, e)) (pure : e.calls = []) :
    (x.overrides outputs).get? id = e.override? (x.inputValue? e) := by
  refine Table.get?_ofList_eq ?_ fun constant => mem_overrides_self given named owns
  intro constant listed
  obtain ⟨e', given', listed⟩ := List.mem_flatMap.1 listed
  rcases mem_outputOverrides listed with ⟨named', found⟩ | ⟨call, inside, same, -, -⟩
  · have expr : e' = e := owns (id, e')
      (List.mem_flatMap.2 ⟨e', given', Expr.mem_identities_self named'⟩) rfl
    rw [expr, valueAt?_positions given (mem_parts_self named) owns] at found
    exact found
  · have expr : call.toExpr = e := owns (call.id, call.toExpr)
      (List.mem_flatMap.2 ⟨e', given', Expr.mem_identities_call inside⟩) same
    rw [← expr, AggregateCall.calls_toExpr] at pure
    cases pure

/-- Wherever the host fills in an aggregate, it fills in every output that names the aggregate. -/
theorem contains_overrides_of_call (consistent : ConsistentIds outputs) {e : Expr}
    (given : e ∈ outputs) {call : AggregateCall} (names : e.stripAlias = call.toExpr)
    {id : ExprId} (named : e.outputId? = some id)
    (filled : (x.overrides outputs).contains call.id = true) :
    (x.overrides outputs).contains id = true := by
  rw [overrides, Table.contains_ofList_iff] at filled
  obtain ⟨⟨k, constant⟩, listed, same⟩ := List.mem_map.1 filled
  obtain ⟨e', given', listed⟩ := List.mem_flatMap.1 listed
  have owned : ∀ part ∈ parts e', OwnsId outputs part := fun part inside =>
    consistent part (List.mem_flatMap.2 ⟨e', given', Expr.mem_identities_of_mem_parts inside⟩)
  have callOwns : OwnsId outputs (call.id, call.toExpr) := consistent _ (List.mem_flatMap.2
    ⟨e, given, Expr.mem_identities_call (Expr.mem_calls_of_stripAlias names)⟩)
  have callFilled : call.toExpr.override? (x.inputValue? call.toExpr) ≠ none := by
    rcases mem_outputOverrides listed with ⟨named', found⟩ | ⟨call', inside, id', part, found⟩
    · rw [valueAt?_positions given' (mem_parts_self named')
        (owned _ (mem_parts_self named'))] at found
      have expr : e' = call.toExpr := callOwns (k, e')
        (List.mem_flatMap.2 ⟨e', given', Expr.mem_identities_self named'⟩) same
      rw [← expr, found]
      exact Option.some_ne_none constant
    · rw [← id', valueAt?_positions given' part (owned _ part)] at found
      have expr : call'.toExpr = call.toExpr := callOwns (call'.id, call'.toExpr)
        (List.mem_flatMap.2 ⟨e', given', Expr.mem_identities_call inside⟩) (id'.trans same)
      rw [← expr, Expr.override?, found]
      cases Expr.markerOverride? call'.toExpr (x.inputValue? call'.toExpr) <;> simp
  obtain ⟨constant', found⟩ := Option.ne_none_iff_exists'.1 callFilled
  rw [← names, Expr.override?_stripAlias, inputValue?_stripAlias] at found
  rw [overrides, Table.contains_ofList_iff]
  exact List.mem_map.2 ⟨(id, constant'), mem_overrides_self given named
    (consistent _ (List.mem_flatMap.2 ⟨e, given, Expr.mem_identities_self named⟩)) found, rfl⟩

end ExpansionRow

end Rollup
