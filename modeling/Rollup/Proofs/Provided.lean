import Rollup.Proofs.Groups

/-!
# Columns that a grouping set provides

An output that is bound to no result is left to the host, which computes it from the columns that
it reads outside aggregates. The host has such a column in a grouping set if the store groups by it
or if a constant is filled in for it. The two are decided apart: a column is left out of the query
by what it stands for in the row of the expansion, but filled in by the value at its place in the
row, and only if the column itself is an output. Where they disagree, the host has nothing to
compute the output from.
-/

namespace Rollup

namespace Expr

mutual

/-- Occurrences of columns outside aggregates, from left to right. -/
def freeColumns : Expr → List Attribute
  | column attr => [attr]
  | literal _ _ | aggregate _ _ => []
  | aliased inner _ _ | cast inner _ => inner.freeColumns
  | scalar _ args => freeColumnsOf args
  | binary _ left right => left.freeColumns ++ right.freeColumns

/-- Occurrences of columns outside aggregates in the expressions of a list. -/
def freeColumnsOf : List Expr → List Attribute
  | [] => []
  | e :: es => e.freeColumns ++ freeColumnsOf es

end

end Expr

/-- The host has the value of an identity in the set: it fills in a constant, or the query has a
result column. -/
def PushedSet.Provides (set : PushedSet) (id : ExprId) : Prop :=
  set.overrides.contains id = true ∨ ∃ r, set.query.resultFor? id = some r

namespace ExpansionRow

/-- The store groups by the expression in this row. -/
def Keeps (x : ExpansionRow) (g : Expr) : Prop :=
  GroupingSet.isMarker g = false ∧ (x.resolve g).isNullLiteral = false

/-- The row has a constant for a column: the number of the set, or a null at the place of the
column. -/
def Settles (x : ExpansionRow) (attr : Attribute) : Prop :=
  attr.isGroupingId = true ∨
    ∃ cell, x.inputValue? (.column attr) = some cell ∧ cell.isNullLiteral = true

variable {x : ExpansionRow} {outputs : List Expr} {attr : Attribute}

/-- An output is filled in exactly if the row settles its only input. -/
theorem override?_isSome_iff {e : Expr} (sole : e.soleColumn? = some attr) :
    (e.override? (x.inputValue? e)).isSome = true ↔ x.Settles attr := by
  unfold Settles Expr.override? Expr.markerOverride? Expr.nullOverride?
  simp only [sole, inputValue?_of_soleColumn? sole]
  cases marks : attr.isGroupingId with
  | true =>
    simp only [↓reduceIte, true_or, iff_true]
    split <;> rfl
  | false =>
    cases x.inputValue? (.column attr) with
    | none => simp
    | some cell =>
      cases cell.isNullLiteral <;> simp

/-- A constant is filled in for a column that owns its identity exactly if the column is an output
and the row settles it. -/
theorem contains_overrides_iff (owns : OwnsId outputs (attr.id, .column attr)) :
    (x.overrides outputs).contains attr.id = true ↔
      .column attr ∈ outputs ∧ x.Settles attr := by
  have filled (listed : .column attr ∈ outputs) : (x.overrides outputs).contains attr.id =
      ((Expr.column attr).override? (x.inputValue? (.column attr))).isSome := by
    rw [Table.contains, get?_overrides listed rfl owns rfl]
  constructor
  · intro known
    have listed : .column attr ∈ outputs := by
      rw [overrides, Table.contains_ofList_iff] at known
      obtain ⟨⟨id, constant⟩, held, same⟩ := List.mem_map.1 known
      obtain ⟨e, given, held⟩ := List.mem_flatMap.1 held
      rcases mem_outputOverrides held with ⟨named, -⟩ | ⟨call, inside, called, -, -⟩
      · have expr : e = .column attr := owns (id, e)
          (List.mem_flatMap.2 ⟨e, given, Expr.mem_identities_self named⟩) same
        exact expr ▸ given
      · have expr : call.toExpr = .column attr := owns (call.id, call.toExpr)
          (List.mem_flatMap.2 ⟨e, given, Expr.mem_identities_call inside⟩) (called.trans same)
        cases expr
    exact ⟨listed, (override?_isSome_iff rfl).1 (filled listed ▸ known)⟩
  · rintro ⟨listed, settled⟩
    rw [filled listed]
    exact (override?_isSome_iff rfl).2 settled

/-- A column that the projection passes on, and by which the store does not group in a row, is
settled by that row. -/
theorem settles_of_not_keeps
    (passed : ∀ e, x.projected? attr = some e → ∃ inner, e.stripAlias = .column inner)
    (dropped : ¬ x.Keeps (.column attr)) : x.Settles attr := by
  cases marks : attr.isGroupingId with
  | true => exact Or.inl marks
  | false =>
    have null : (x.resolve (.column attr)).isNullLiteral = true := by
      by_contra present
      exact dropped ⟨marks, Bool.eq_false_iff.2 present⟩
    obtain ⟨inner, same⟩ := resolve_column_of_passed passed
    cases found : x.inputValue? (.column attr) with
    | none =>
      rw [same, found] at null
      cases null
    | some cell =>
      rw [same, found, Option.getD_some] at null
      exact Or.inr ⟨cell, found, null⟩

end ExpansionRow

/-- An expression that is neither a marker nor a column is grouped by in every row, if it has an
identity. -/
theorem ExpansionRow.keeps_of_named {x : ExpansionRow} {g : Expr} {id : ExprId}
    (named : g.outputId? = some id) (unmarked : GroupingSet.isMarker g = false)
    (computed : g.column? = none) : x.Keeps g := by
  refine ⟨unmarked, ?_⟩
  cases g with
  | column attr => cases computed
  | aliased | aggregate =>
    rw [resolve, Expr.mapColumns]
    rfl
  | literal | cast | scalar | binary => cases named

namespace Rule.Lowers

variable {rule : Rule} {source : Source} {groupBy outputs : List Expr} {x : ExpansionRow}
  {pushed : PushedSet}

/-- The identities with a result column are those of the expressions by which the store groups and
of the aggregates that it computes. -/
theorem exists_resultFor?_iff
    (lowers : rule.Lowers source (.ofRow groupBy outputs x) pushed)
    (start : source.query.results.values = []) {id : ExprId} :
    (∃ r, pushed.query.resultFor? id = some r) ↔
      (∃ g ∈ groupBy, g.outputId? = some id ∧ x.Keeps g) ∨
        ∃ call ∈ (GroupingSet.ofRow groupBy outputs x).calls, call.id = id := by
  rw [Query.exists_resultFor?_iff, lowers.exprs, start, GroupingSet.dimensions_ofRow]
  constructor
  · rintro ⟨e, held, named⟩
    rcases List.mem_append.1 held with grouped | computed
    · obtain ⟨pair, kept, rfl⟩ := List.mem_map.1 grouped
      obtain ⟨listed, kept⟩ := List.mem_filter.1 kept
      obtain ⟨g, given, rfl⟩ := List.mem_map.1 listed
      rw [Bool.and_eq_true, Bool.not_eq_true', Bool.not_eq_true'] at kept
      exact Or.inl ⟨g, given, named, kept⟩
    · obtain ⟨call, asked, rfl⟩ := List.mem_map.1 computed
      exact Or.inr ⟨call, asked, Option.some.inj named⟩
  · rintro (⟨g, given, named, kept⟩ | ⟨call, asked, same⟩)
    · refine ⟨g, List.mem_append_left _ ?_, named⟩
      refine List.mem_map.2 ⟨(g, x.resolve g), List.mem_filter.2 ⟨?_, ?_⟩, rfl⟩
      · exact List.mem_map.2 ⟨g, given, rfl⟩
      · rw [kept.1, kept.2]
        rfl
    · refine ⟨call.toExpr, List.mem_append_right _ (List.mem_map.2 ⟨call, asked, rfl⟩), ?_⟩
      rw [AggregateCall.outputId?_toExpr, same]

/-- A lowered set provides a column that owns its identity exactly if the store groups by an
expression of that identity, or if the column is an output and the row settles it. -/
theorem provides_iff (lowers : rule.Lowers source (.ofRow groupBy outputs x) pushed)
    (start : source.query.results.values = []) {attr : Attribute}
    (owns : OwnsId outputs (attr.id, .column attr)) :
    pushed.Provides attr.id ↔
      (∃ g ∈ groupBy, g.outputId? = some attr.id ∧ x.Keeps g) ∨
        .column attr ∈ outputs ∧ x.Settles attr := by
  have uncalled : ¬ ∃ call ∈ (GroupingSet.ofRow groupBy outputs x).calls, call.id = attr.id := by
    rintro ⟨call, asked, same⟩
    obtain ⟨e, given, inside⟩ := GroupingSet.mem_calls_of_mem asked
    have expr : call.toExpr = .column attr := owns (call.id, call.toExpr)
      (List.mem_flatMap.2 ⟨e, given, Expr.mem_identities_call inside⟩) same
    cases expr
  have overridden : pushed.overrides.contains attr.id = true ↔
      .column attr ∈ outputs ∧ x.Settles attr := by
    rw [lowers.overrides]
    exact ExpansionRow.contains_overrides_iff owns
  rw [PushedSet.Provides, overridden, lowers.exists_resultFor?_iff start, or_iff_left uncalled]
  exact or_comm

end Rule.Lowers

/-- The host has a column in every grouping set: it is the identity of a computed grouping
expression, or it is grouped by and put out under an identity of its own, and a projection above
the expansion passes it on. -/
def Expansion.Serves (x : Expansion) (groupBy outputs : List Expr) (attr : Attribute) : Prop :=
  (∃ g ∈ groupBy, g.outputId? = some attr.id ∧ GroupingSet.isMarker g = false ∧
    g.column? = none) ∨
  .column attr ∈ groupBy ∧ .column attr ∈ outputs ∧ OwnsId outputs (attr.id, .column attr) ∧
    ∀ e ∈ x.project?.getD [], e.outputId? = some attr.id → ∃ inner, e.stripAlias = .column inner

/-- The expressions of a projection that put out a column belong to the projection. -/
theorem Expansion.mem_of_projected? {x : Expansion} {row : ExpansionRow} (given : row ∈ x.rows)
    {attr : Attribute} {e : Expr} (found : row.projected? attr = some e) :
    e ∈ x.project?.getD [] ∧ e.outputId? = some attr.id := by
  obtain ⟨cells, -, rfl⟩ := List.mem_map.1 given
  obtain ⟨expressions, projects, found⟩ := Option.bind_eq_some_iff.1 found
  have projects : x.project? = some expressions := projects
  rw [projects]
  exact ⟨List.mem_of_find?_eq_some found, by simpa using List.find?_some found⟩

/-- In every grouping set, the host has a column that owns its identity exactly if the store groups
by an expression of that identity, or if the column is itself an output and the row of the
expansion has a constant at its place. So it can compute every output whose columns outside
aggregates are computed grouping expressions, or grouping columns that are outputs themselves and
are passed on from the expansion as they are. -/
theorem provides_of_pushAggregate? {catalog : Catalog} {scripts : ScriptCompiler}
    {settings : Settings} {input : Plan} {groupBy outputs : List Expr} {x : Expansion}
    {p : PushedAggregate} (expanded : Expansion.ofPlan? input = some x)
    (pushed : pushAggregate? catalog scripts settings (.aggregate input groupBy outputs) =
      some p) :
    List.Forall₂ (fun row set => ∀ attr, OwnsId outputs (attr.id, .column attr) →
      (set.Provides attr.id ↔ (∃ g ∈ groupBy, g.outputId? = some attr.id ∧ row.Keeps g) ∨
        .column attr ∈ outputs ∧ row.Settles attr)) x.rows p.sets ∧
    ∀ set ∈ p.sets, ∀ output ∈ outputs,
      (∀ attr ∈ output.freeColumns, x.Serves groupBy outputs attr) →
        ∀ attr ∈ output.freeColumns, set.Provides attr.id := by
  obtain ⟨source, known, lowered⟩ := Rule.exists_source_of_expansion expanded pushed
  obtain ⟨r, empty⟩ := Source.query_eq_of_ofPlan? known
  have start : source.query.results.values = [] := by
    rw [empty]
    rfl
  constructor
  · refine lowered.imp ?_
    intro row set lowers attr owns
    exact lowers.provides_iff start owns
  · intro set given output _ served attr free
    have rows := (List.forall₂_and_left _ _).2 ⟨fun row listed => listed, lowered⟩
    obtain ⟨row, -, listed, lowers⟩ := Run.exists_item rows given
    rcases served attr free with ⟨g, grouped, named, unmarked, computed⟩ |
      ⟨grouped, put, owns, passed⟩
    · have kept := ExpansionRow.keeps_of_named (x := row) named unmarked computed
      exact Or.inr ((lowers.exists_resultFor?_iff start).2 (Or.inl ⟨g, grouped, named, kept⟩))
    · refine (lowers.provides_iff start owns).2 ?_
      by_cases kept : row.Keeps (.column attr)
      · exact Or.inl ⟨_, grouped, rfl, kept⟩
      · refine Or.inr ⟨put, ExpansionRow.settles_of_not_keeps (fun e found => ?_) kept⟩
        obtain ⟨member, named⟩ := Expansion.mem_of_projected? listed found
        exact passed e member named

namespace Sales

/-- The country in capitals, which the store does not compute. -/
def capitals : Expr := .aliased (.scalar .upper [.column country]) "capitals" ⟨41⟩

/-- Outputs of the rollup: those that are chosen, and the number of sales. -/
def outputsOf (chosen : List Expr) : List Expr := chosen ++ [.aliased count.toExpr "sales" ⟨23⟩]

/-- The rollup with chosen outputs. -/
def rollupOf (chosen : List Expr) : Plan :=
  .aggregate (.expand scan projections output) groupBy (outputsOf chosen)

end Sales

/-- In a rollup that puts out its grouping columns, the host can compute the country in capitals. -/
theorem provides_capitals :
    ∃ p, pushAggregate? Sales.catalog .none .allEnabled
        (Sales.rollupOf (Sales.groupBy ++ [Sales.capitals])) = some p ∧
      p.sets.length = 3 ∧
      ∀ set ∈ p.sets, ∀ attr ∈ Sales.capitals.freeColumns, set.Provides attr.id := by
  have isPushed : ((pushAggregate? Sales.catalog .none .allEnabled
      (Sales.rollupOf (Sales.groupBy ++ [Sales.capitals]))).map fun p => p.sets.length) =
        some 3 := by
    decide +kernel
  obtain ⟨p, pushed, sets⟩ := Option.map_eq_some_iff.1 isPushed
  have consistent : ConsistentIds (Sales.outputsOf (Sales.groupBy ++ [Sales.capitals])) :=
    consistentIds_of_nodup (by decide)
  have grouped : .column Sales.country ∈ Sales.groupBy := List.mem_map_of_mem (by decide)
  have put : .column Sales.country ∈ Sales.outputsOf (Sales.groupBy ++ [Sales.capitals]) :=
    List.mem_append_left _ (List.mem_append_left _ grouped)
  obtain ⟨-, provided⟩ := provides_of_pushAggregate? rfl pushed
  refine ⟨p, pushed, sets, fun set given => provided set given Sales.capitals ?_ ?_⟩
  · exact List.mem_append_left _ (List.mem_append_right _ List.mem_cons_self)
  · intro attr free
    cases List.mem_singleton.1 free
    refine Or.inr ⟨grouped, put, ?_, fun e member => absurd member List.not_mem_nil⟩
    exact consistent _ (List.mem_flatMap.2 ⟨_, put, Expr.mem_identities_self rfl⟩)

/-- In a rollup that puts out the country in capitals alone, every column that an output reads is
grouped by; still the host has no country to compute from where the country is nulled out. -/
theorem not_provides_capitals :
    (∀ output ∈ Sales.outputsOf [Sales.capitals], ∀ attr ∈ output.freeColumns,
      ∃ g ∈ Sales.groupBy, g.outputId? = some attr.id) ∧
    ∃ p first second third, pushAggregate? Sales.catalog .none .allEnabled
        (Sales.rollupOf [Sales.capitals]) = some p ∧ p.sets = [first, second, third] ∧
      Sales.country ∈ Sales.capitals.freeColumns ∧ ¬ second.Provides Sales.country.id := by
  refine ⟨by decide, ?_⟩
  have missing : ((pushAggregate? Sales.catalog .none .allEnabled
      (Sales.rollupOf [Sales.capitals])).map fun p => p.sets.map fun set =>
        (set.overrides.contains Sales.country.id,
          (set.query.resultFor? Sales.country.id).isSome)) =
      some [(false, true), (false, false), (false, false)] := by
    decide +kernel
  obtain ⟨p, pushed, sets⟩ := Option.map_eq_some_iff.1 missing
  obtain ⟨first, rest, whole, -, sets⟩ := List.map_eq_cons_iff.1 sets
  obtain ⟨second, rest, rfl, missing, sets⟩ := List.map_eq_cons_iff.1 sets
  obtain ⟨third, rfl, -⟩ := List.map_eq_singleton_iff.1 sets
  refine ⟨p, first, second, third, pushed, whole, List.mem_cons_self, ?_⟩
  obtain ⟨unfilled, unnamed⟩ := Prod.mk.inj missing
  rintro (filled | ⟨r, found⟩)
  · rw [unfilled] at filled
    cases filled
  · rw [found] at unnamed
    cases unnamed

end Rollup
