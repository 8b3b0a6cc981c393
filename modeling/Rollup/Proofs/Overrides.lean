import Rollup.Proofs.Casts
import Rollup.Proofs.ListOrder
import Rollup.Proofs.Provided

/-!
# What the host fills in

Which identities get a constant in a row of an expansion, and which constant. An output is filled
in if the column from which it is computed numbers the sets or is null in the row, and an aggregate
inside an output that is not filled in, if the column of its argument is null. A marker that stands
as a literal in the row gives this literal and everything else a null of its own type, but where one
aggregate is filled in twice, as an output and inside a later one, the later constant remains.
-/

namespace Rollup

/-- An element of a list has a last occurrence. -/
theorem exists_last_of_mem {α : Type} {a : α} {xs : List α} (held : a ∈ xs) :
    ∃ before after, xs = before ++ a :: after ∧ a ∉ after := by
  obtain ⟨after, before, split, first⟩ := List.eq_append_cons_of_mem (List.mem_reverse.2 held)
  refine ⟨before.reverse, after.reverse, ?_, fun later => first (List.mem_reverse.1 later)⟩
  rw [← List.reverse_reverse xs, split, List.reverse_append, List.reverse_cons, List.append_assoc,
    List.singleton_append]

namespace Expr

/-- The expression is computed from one column alone: it is the column, an alias of such an
expression, or an aggregate of the column under numeric casts. -/
inductive ComputedFrom (attr : Attribute) : Expr → Prop
  | column : ComputedFrom attr (.column attr)
  | aliased {inner : Expr} {name : String} {id : ExprId} (below : ComputedFrom attr inner) :
      ComputedFrom attr (.aliased inner name id)
  | aggregate {head : AggregateHead} {arg : Expr} {casts : List (DataType × DataType)}
      (argument : NumericCastOf (.column attr) casts arg) :
      ComputedFrom attr (.aggregate head [arg])

variable {e : Expr} {attr : Attribute}

/-- The only column of an expression is the one from which the expression is computed. -/
theorem soleColumn?_eq_some_iff : e.soleColumn? = some attr ↔ ComputedFrom attr e := by
  constructor
  · intro sole
    fun_induction soleColumn? e with
    | case1 attr' =>
      cases sole
      exact .column
    | case2 inner _ _ ih => exact .aliased (ih sole)
    | case3 head arg =>
      obtain ⟨casts, cast⟩ := stripNumericCasts_eq_column_iff.1 (column?_eq_some_iff.1 sole)
      exact .aggregate cast
    | case4 => cases sole
  · intro computed
    induction computed with
    | column => rw [soleColumn?]
    | aliased _ ih => rw [soleColumn?, ih]
    | aggregate argument =>
      rw [soleColumn?, column?_eq_some_iff]
      exact stripNumericCasts_eq_column_iff.2 ⟨_, argument⟩

/-- An identified part appears under its identity. -/
theorem outputId?_of_mem_identities {outputs : List Expr} {k : ExprId}
    (part : (k, e) ∈ outputs.flatMap identities) : e.outputId? = some k := by
  obtain ⟨output, -, inside⟩ := List.mem_flatMap.1 part
  rcases List.mem_append.1 inside with self | nested
  · obtain ⟨id, named, same⟩ := Option.map_eq_some_iff.1 (Option.mem_toList.1 self)
    obtain ⟨rfl, rfl⟩ := Prod.mk.inj same
    exact named
  · obtain ⟨call, -, same⟩ := List.mem_map.1 nested
    obtain ⟨rfl, rfl⟩ := Prod.mk.inj same
    exact call.outputId?_toExpr

end Expr

namespace ExpansionRow

/-- The output is computed from a column for which the row has a constant. -/
def Fills (x : ExpansionRow) (e : Expr) : Prop :=
  ∃ attr, Expr.ComputedFrom attr e ∧ x.Settles attr

/-- The output is computed from a column that is null in the row. -/
def Nulls (x : ExpansionRow) (e : Expr) : Prop :=
  ∃ attr cell, Expr.ComputedFrom attr e ∧ x.inputValue? (.column attr) = some cell ∧
    cell.isNullLiteral = true

/-- The output is computed from the number of the grouping set, which is a literal in the row. -/
def Numbers (x : ExpansionRow) (e : Expr) (value : Value) (type : DataType) : Prop :=
  ∃ attr, Expr.ComputedFrom attr e ∧ attr.isGroupingId = true ∧
    x.inputValue? (.column attr) = some (.literal value type)

/-- An aggregate of a column that is null in the row is inside an output that has an identity but is
not filled in itself. -/
structure FillsInside (x : ExpansionRow) (e : Expr) (call : AggregateCall) : Prop where
  named : ∃ id, e.outputId? = some id
  unfilled : ¬ x.Fills e
  inside : call ∈ e.calls
  nulls : x.Nulls call.toExpr

/-- An aggregate that is an output is filled in again inside an output that comes after its last
occurrence. -/
def FillsAgain (x : ExpansionRow) (outputs : List Expr) (e : Expr) : Prop :=
  ∃ call before f after, e = call.toExpr ∧ outputs = before ++ f :: after ∧ e ∈ before ∧
    e ∉ after ∧ x.FillsInside f call

variable {x : ExpansionRow} {outputs : List Expr} {e v : Expr} {k : ExprId}

/-- An output is filled in exactly if the row has a constant for its column. -/
theorem isSome_override?_iff_fills :
    (e.override? (x.inputValue? e)).isSome = true ↔ x.Fills e := by
  constructor
  · intro filled
    obtain ⟨constant, found⟩ := Option.isSome_iff_exists.1 filled
    obtain ⟨attr, sole⟩ := Expr.exists_soleColumn?_of_override? found
    exact ⟨attr, Expr.soleColumn?_eq_some_iff.1 sole, (override?_isSome_iff sole).1 filled⟩
  · rintro ⟨attr, computed, settled⟩
    exact (override?_isSome_iff (Expr.soleColumn?_eq_some_iff.2 computed)).2 settled

/-- A typed null is filled in exactly if the column is null in the row. -/
theorem nullOverride?_eq_some_iff :
    e.nullOverride? (x.inputValue? e) = some v ↔ x.Nulls e ∧ v = .null e.dataType := by
  constructor
  · intro filled
    obtain ⟨⟨attr, sole⟩, ⟨cell, read, null⟩, typed⟩ := Expr.eq_null_of_nullOverride? filled
    rw [inputValue?_of_soleColumn? sole] at read
    exact ⟨⟨attr, cell, Expr.soleColumn?_eq_some_iff.1 sole, read, null⟩, typed⟩
  · rintro ⟨⟨attr, cell, computed, read, null⟩, rfl⟩
    have sole := Expr.soleColumn?_eq_some_iff.2 computed
    unfold Expr.nullOverride?
    rw [inputValue?_of_soleColumn? sole, sole, read]
    exact if_pos null

section Consistent

variable (consistent : ConsistentIds outputs) (given : e ∈ outputs)
include consistent given

/-- The parts of an output read the values of their only inputs. -/
theorem valueAt?_of_mem_parts {part : ExprId × Expr} (inside : part ∈ parts e) :
    x.valueAt? (x.positions outputs) part.1 = x.inputValue? part.2 :=
  valueAt?_positions given inside (consistent part
    (List.mem_flatMap.2 ⟨e, given, Expr.mem_identities_of_mem_parts inside⟩))

/-- No aggregate of an output is left out for another one of its identity. -/
theorem mem_aggregates_iff {call : AggregateCall} : call ∈ e.aggregates ↔ call ∈ e.calls :=
  distinctBy.mem_iff fun _ inside _ inside' same => AggregateCall.toExpr_injective
    (consistent.toExpr_eq given given inside' inside same)

/-- The aggregates inside an output that are filled in are those over null columns. -/
theorem mem_nestedOverrides_iff {id : ExprId} (named : e.outputId? = some id) :
    (k, v) ∈ (e.aggregates.filterMap fun call =>
        (call.toExpr.nullOverride? (x.valueAt? (x.positions outputs) call.id)).map
          fun constant => (call.id, constant)) ↔
      ∃ call ∈ e.calls, call.id = k ∧ x.Nulls call.toExpr ∧ v = .null call.toExpr.dataType := by
  have read {call : AggregateCall} (inside : call ∈ e.aggregates) :
      x.valueAt? (x.positions outputs) call.id = x.inputValue? call.toExpr := by
    have part : (call.id, call.toExpr) ∈ parts e := by
      rw [parts, named]
      exact List.mem_cons_of_mem _ (List.mem_map.2 ⟨call, inside, rfl⟩)
    exact valueAt?_of_mem_parts consistent given part
  rw [List.mem_filterMap]
  constructor
  · rintro ⟨call, inside, listed⟩
    obtain ⟨value, found, same⟩ := Option.map_eq_some_iff.1 listed
    obtain ⟨rfl, rfl⟩ := Prod.mk.inj same
    rw [read inside] at found
    obtain ⟨nulls, typed⟩ := nullOverride?_eq_some_iff.1 found
    exact ⟨call, (mem_aggregates_iff consistent given).1 inside, rfl, nulls, typed⟩
  · rintro ⟨call, inside, rfl, nulls, rfl⟩
    have kept := (mem_aggregates_iff consistent given).2 inside
    refine ⟨call, kept, ?_⟩
    rw [read kept, nullOverride?_eq_some_iff.2 ⟨nulls, rfl⟩]
    rfl

/-- An output gives one constant if it is filled in, and otherwise a null for each aggregate inside
it whose column is null. -/
theorem mem_outputOverrides_iff :
    (k, v) ∈ outputOverrides (x.valueAt? (x.positions outputs)) e ↔
      (e.outputId? = some k ∧ e.override? (x.inputValue? e) = some v) ∨
        ∃ call, x.FillsInside e call ∧ call.id = k ∧ v = .null call.toExpr.dataType := by
  unfold outputOverrides
  cases named : e.outputId? with
  | none =>
    constructor
    · intro listed
      cases listed
    · rintro (⟨own, -⟩ | ⟨call, nested, -, -⟩)
      · cases own
      · obtain ⟨id, own⟩ := nested.named
        cases named.symm.trans own
  | some id =>
    have own := valueAt?_of_mem_parts (x := x) consistent given (mem_parts_self named)
    simp only [own]
    cases filled : e.override? (x.inputValue? e) with
    | some constant =>
      have fills : x.Fills e :=
        isSome_override?_iff_fills.1 (Option.isSome_iff_exists.2 ⟨constant, filled⟩)
      constructor
      · intro listed
        obtain ⟨rfl, rfl⟩ := Prod.mk.inj (List.mem_singleton.1 listed)
        exact Or.inl ⟨rfl, rfl⟩
      · rintro (⟨same, value⟩ | ⟨call, nested, -, -⟩)
        · cases same
          cases value
          exact List.mem_singleton.2 rfl
        · exact (nested.unfilled fills).elim
    | none =>
      have unfilled : ¬ x.Fills e := by
        rw [← isSome_override?_iff_fills, filled]
        exact Bool.false_ne_true
      refine (mem_nestedOverrides_iff consistent given named).trans ?_
      constructor
      · rintro ⟨call, inside, same, nulls, typed⟩
        exact Or.inr ⟨call, ⟨⟨id, named⟩, unfilled, inside, nulls⟩, same, typed⟩
      · rintro (⟨-, value⟩ | ⟨call, nested, same, typed⟩)
        · cases value
        · exact ⟨call, nested.inside, same, nested.nulls, typed⟩

end Consistent

/-- The identities that are filled in are those of outputs for whose column the row has a constant,
and of aggregates over null columns inside other outputs. -/
theorem contains_overrides_iff_fills (consistent : ConsistentIds outputs) :
    (x.overrides outputs).contains k = true ↔
      (∃ e ∈ outputs, e.outputId? = some k ∧ x.Fills e) ∨
        ∃ e ∈ outputs, ∃ call, x.FillsInside e call ∧ call.id = k := by
  rw [overrides, Table.contains_ofList_iff]
  constructor
  · intro known
    obtain ⟨⟨id, v⟩, listed, rfl⟩ := List.mem_map.1 known
    obtain ⟨e, given, listed⟩ := List.mem_flatMap.1 listed
    rcases (mem_outputOverrides_iff consistent given).1 listed with ⟨named, filled⟩ |
      ⟨call, nested, same, -⟩
    · have fills := isSome_override?_iff_fills.1 (Option.isSome_iff_exists.2 ⟨v, filled⟩)
      exact Or.inl ⟨e, given, named, fills⟩
    · exact Or.inr ⟨e, given, call, nested, same⟩
  · rintro (⟨e, given, named, fills⟩ | ⟨e, given, call, nested, same⟩)
    · obtain ⟨v, filled⟩ := Option.isSome_iff_exists.1 (isSome_override?_iff_fills.2 fills)
      refine List.mem_map.2 ⟨(k, v), List.mem_flatMap.2 ⟨e, given, ?_⟩, rfl⟩
      exact (mem_outputOverrides_iff consistent given).2 (Or.inl ⟨named, filled⟩)
    · refine List.mem_map.2
        ⟨(k, .null call.toExpr.dataType), List.mem_flatMap.2 ⟨e, given, ?_⟩, rfl⟩
      exact (mem_outputOverrides_iff consistent given).2 (Or.inr ⟨call, nested, same, rfl⟩)

/-- The constants that are given for an identified part come from the part itself as an output, or
are nulls of its type. -/
theorem eq_null_of_mem_outputOverrides (consistent : ConsistentIds outputs)
    (part : (k, e) ∈ outputs.flatMap Expr.identities) {f : Expr} (given : f ∈ outputs)
    (listed : (k, v) ∈ outputOverrides (x.valueAt? (x.positions outputs)) f) :
    (f = e ∧ e.override? (x.inputValue? e) = some v) ∨
      ∃ call, e = call.toExpr ∧ x.FillsInside f call ∧ v = .null e.dataType := by
  have owns := consistent (k, e) part
  rcases (mem_outputOverrides_iff consistent given).1 listed with ⟨named, filled⟩ |
    ⟨call, nested, same, typed⟩
  · have expr : f = e :=
      owns (k, f) (List.mem_flatMap.2 ⟨f, given, Expr.mem_identities_self named⟩) rfl
    exact Or.inl ⟨expr, expr ▸ filled⟩
  · have expr : call.toExpr = e := owns (call.id, call.toExpr)
      (List.mem_flatMap.2 ⟨f, given, Expr.mem_identities_call nested.inside⟩) same
    exact Or.inr ⟨call, expr.symm, nested, expr ▸ typed⟩

/-- The number of a grouping set that is a literal in the row is filled in as it stands. -/
theorem override?_of_numbers {value : Value} {type : DataType} (numbers : x.Numbers e value type) :
    e.override? (x.inputValue? e) = some (.literal value type) := by
  obtain ⟨attr, computed, marks, read⟩ := numbers
  have sole := Expr.soleColumn?_eq_some_iff.2 computed
  have marked : e.markerOverride? (x.inputValue? e) = some (.literal value type) := by
    unfold Expr.markerOverride?
    rw [inputValue?_of_soleColumn? sole, sole, read]
    exact if_pos marks
  rw [Expr.override?, marked, Option.some_or]

/-- What is filled in otherwise is a null of the type of the output. -/
theorem eq_null_of_override? (filled : e.override? (x.inputValue? e) = some v)
    (unnumbered : ∀ value type, ¬ x.Numbers e value type) : v = .null e.dataType := by
  rcases Expr.cases_of_override? filled with null | ⟨attr, value, type, sole, marks, read, -⟩
  · exact null
  · rw [inputValue?_of_soleColumn? sole] at read
    exact (unnumbered value type ⟨attr, Expr.soleColumn?_eq_some_iff.1 sole, marks, read⟩).elim

/-- An output whose column is null is filled in. -/
theorem Nulls.fills (nulls : x.Nulls e) : x.Fills e := by
  obtain ⟨attr, cell, computed, read, null⟩ := nulls
  exact ⟨attr, computed, Or.inr ⟨cell, read, null⟩⟩

/-- The value of an identified part is one that an output gives for it, from any point on after
which there is one. -/
theorem mem_of_get?_overrides {before later : List Expr} (split : outputs = before ++ later)
    {f : Expr} (given : f ∈ later) {w : Expr}
    (listed : (k, w) ∈ outputOverrides (x.valueAt? (x.positions outputs)) f)
    (filled : (x.overrides outputs).get? k = some v) :
    ∃ f ∈ later, (k, v) ∈ outputOverrides (x.valueAt? (x.positions outputs)) f := by
  rw [overrides] at filled
  generalize x.valueAt? (x.positions outputs) = value? at listed filled ⊢
  rw [split, List.flatMap_append] at filled
  refine List.mem_flatMap.1 (Table.mem_of_get?_ofList_append ?_ filled)
  exact List.mem_map.2 ⟨(k, w), List.mem_flatMap.2 ⟨f, given, listed⟩, rfl⟩

/-- A number of the grouping set that is a literal in the row is filled in as this literal, unless
a later output fills it in again. -/
theorem eq_literal_of_get?_overrides (consistent : ConsistentIds outputs)
    (part : (k, e) ∈ outputs.flatMap Expr.identities) (given : e ∈ outputs) {value : Value}
    {type : DataType} (numbers : x.Numbers e value type) (last : ¬ x.FillsAgain outputs e)
    (filled : (x.overrides outputs).get? k = some v) : v = .literal value type := by
  have own := override?_of_numbers numbers
  have fills : x.Fills e := isSome_override?_iff_fills.1 (Option.isSome_iff_exists.2 ⟨_, own⟩)
  have named : e.outputId? = some k := Expr.outputId?_of_mem_identities part
  obtain ⟨before, after, split, notLater⟩ := exists_last_of_mem given
  have listed := (mem_outputOverrides_iff (x := x) consistent given).2 (Or.inl ⟨named, own⟩)
  obtain ⟨f, later, listed⟩ := mem_of_get?_overrides split List.mem_cons_self listed filled
  have held : f ∈ outputs := split ▸ List.mem_append_right before later
  rcases eq_null_of_mem_outputOverrides consistent part held listed with ⟨-, again⟩ |
    ⟨call, expr, nested, -⟩
  · rw [own] at again
    exact (Option.some.inj again).symm
  · rcases List.mem_cons.1 later with rfl | later
    · exact (nested.unfilled fills).elim
    · obtain ⟨between, rest, rfl⟩ := List.append_of_mem later
      refine (last ⟨call, before ++ e :: between, f, rest, expr, ?_, ?_, ?_, nested⟩).elim
      · rw [split, List.append_assoc, List.cons_append]
      · exact List.mem_append_right before List.mem_cons_self
      · intro later
        exact notLater (List.mem_append_right between (List.mem_cons_of_mem f later))

/-- An aggregate that a later output fills in again is filled in as a null of its type. -/
theorem eq_null_of_fillsAgain (consistent : ConsistentIds outputs)
    (part : (k, e) ∈ outputs.flatMap Expr.identities) (again : x.FillsAgain outputs e)
    (filled : (x.overrides outputs).get? k = some v) : v = .null e.dataType := by
  obtain ⟨call, before, f, after, expr, split, -, notLater, nested⟩ := again
  have known : call.id = k := by
    have named := Expr.outputId?_of_mem_identities part
    rw [expr, AggregateCall.outputId?_toExpr] at named
    exact Option.some.inj named
  have held : f ∈ outputs := split ▸ List.mem_append_right before List.mem_cons_self
  have listed := (mem_outputOverrides_iff consistent held).2 (Or.inr ⟨call, nested, known, rfl⟩)
  obtain ⟨f', later, listed⟩ := mem_of_get?_overrides split List.mem_cons_self listed filled
  have held' : f' ∈ outputs := split ▸ List.mem_append_right before later
  rcases eq_null_of_mem_outputOverrides consistent part held' listed with ⟨rfl, -⟩ |
    ⟨-, -, -, null⟩
  · -- the part itself does not come so late: it is filled in, and the later output is not
    rcases List.mem_cons.1 later with rfl | later
    · exact (nested.unfilled (expr ▸ nested.nulls.fills)).elim
    · exact (notLater later).elim
  · exact null

end ExpansionRow

/-- What the host fills in for the outputs of a grouping set, where identities are consistent. It
fills in every output for whose column the row has a constant, and inside the other outputs every
aggregate over a column that is null. The constant is the literal of the row if the column numbers
the grouping sets, the row has a literal for it and no later output fills it in again, and otherwise
a null of the type of what is filled in. -/
theorem GroupingSet.overrides_ofRow {outputs : List Expr} (consistent : ConsistentIds outputs)
    (groupBy : List Expr) (x : ExpansionRow) (k : ExprId) :
    ((ofRow groupBy outputs x).overrides.contains k = true ↔
      (∃ e ∈ outputs, e.outputId? = some k ∧ x.Fills e) ∨
        ∃ e ∈ outputs, ∃ call, x.FillsInside e call ∧ call.id = k) ∧
    ∀ e v, (k, e) ∈ outputs.flatMap Expr.identities →
      (ofRow groupBy outputs x).overrides.get? k = some v →
      (∀ value type, e ∈ outputs → x.Numbers e value type → ¬ x.FillsAgain outputs e →
        v = .literal value type) ∧
      ((∀ value type, e ∈ outputs → ¬ x.Numbers e value type) ∨ x.FillsAgain outputs e →
        v = .null e.dataType) := by
  refine ⟨ExpansionRow.contains_overrides_iff_fills consistent, ?_⟩
  intro e v part filled
  constructor
  · intro value type given numbers last
    exact ExpansionRow.eq_literal_of_get?_overrides consistent part given numbers last filled
  · rintro (unnumbered | again)
    · obtain ⟨f, given, listed⟩ := List.mem_flatMap.1 (Table.mem_of_get?_ofList filled)
      rcases ExpansionRow.eq_null_of_mem_outputOverrides consistent part given listed with
        ⟨rfl, own⟩ | ⟨-, -, -, null⟩
      · exact ExpansionRow.eq_null_of_override? own fun value type => unnumbered value type given
      · exact null
    · exact ExpansionRow.eq_null_of_fillsAgain consistent part again filled

namespace Sales

/-- The row of an expansion that has no number for its grouping set. -/
def unnumberedRow : ExpansionRow where
  project? := none
  output := [city, narrowMarker]
  row := [.column scannedCity, .null .int32]

/-- The number of sales with a number, and one more. -/
def numberings : List Expr := [numbering.toExpr, nextNumbering]

/-- The number of sales with a number is computed from a number that is null in the row. -/
theorem numbers_numbering : unnumberedRow.Numbers numbering.toExpr .null .int32 :=
  ⟨narrowMarker, .aggregate .bare, by decide +kernel, rfl⟩

/-- One more than this number has the number inside, and is not filled in. -/
theorem fillsInside_nextNumbering : unnumberedRow.FillsInside nextNumbering numbering where
  named := ⟨⟨57⟩, rfl⟩
  unfilled := by
    rintro ⟨attr, computed, -⟩
    cases computed with
    | aliased below => cases below
  inside := List.mem_cons_self
  nulls := ⟨narrowMarker, .null .int32, .aggregate .bare, rfl, rfl⟩

end Sales

/-- The number of sales with a number is filled in, and inside a later output again, so that it is
filled in as a null of its own type. -/
theorem overrides_numberings :
    ConsistentIds Sales.numberings ∧
    (GroupingSet.ofRow [] Sales.numberings Sales.unnumberedRow).overrides.contains ⟨56⟩ = true ∧
    ∀ v, (GroupingSet.ofRow [] Sales.numberings Sales.unnumberedRow).overrides.get? ⟨56⟩ = some v →
      v = .null .int64 := by
  obtain ⟨keys, values⟩ := GroupingSet.overrides_ofRow Sales.consistentIds_numbering []
    Sales.unnumberedRow ⟨56⟩
  refine ⟨Sales.consistentIds_numbering, keys.2 (Or.inr ?_), ?_⟩
  · exact ⟨_, List.mem_cons_of_mem _ List.mem_cons_self, _, Sales.fillsInside_nextNumbering, rfl⟩
  · intro v filled
    refine (values Sales.numbering.toExpr v List.mem_cons_self filled).2 (Or.inr ?_)
    exact ⟨Sales.numbering, [Sales.numbering.toExpr], Sales.nextNumbering, [], rfl, rfl,
      List.mem_cons_self, List.not_mem_nil, Sales.fillsInside_nextNumbering⟩

/-- The number of sales with a number is an output, its identity is consistent, and the row has a
null of another type for its number. What is filled in is not this null. -/
theorem overrides_ne_rowLiteral :
    ConsistentIds Sales.numberings ∧ Sales.numbering.toExpr ∈ Sales.numberings ∧
    Sales.unnumberedRow.Numbers Sales.numbering.toExpr .null .int32 ∧
    (GroupingSet.ofRow [] Sales.numberings Sales.unnumberedRow).overrides.get? ⟨56⟩ ≠
      some (.literal .null .int32) := by
  refine ⟨Sales.consistentIds_numbering, List.mem_cons_self, Sales.numbers_numbering, ?_⟩
  have typed : ((GroupingSet.ofRow [] Sales.numberings Sales.unnumberedRow).overrides.get?
      ⟨56⟩).map Expr.dataType = some .int64 := by
    decide +kernel
  intro own
  rw [own] at typed
  cases typed

end Rollup
