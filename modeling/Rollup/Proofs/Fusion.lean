import Rollup.Proofs.Agreement
import Rollup.Proofs.ColumnChains
import Rollup.Proofs.Groups

/-!
# Projections folded into expansions

A projection between an aggregate and its expansion may rename, reorder, repeat and drop columns.
Where it does nothing else, its columns could as well be put out by the expansion itself, and the
aggregate is pushed alike over both. A column is looked up in the projection and then in the row of
the expansion; both steps together find the cell that the folded expansion has for it.
-/

namespace Rollup

/-- What a row of an expansion has for the column that an expression passes on. -/
def Expr.passedCell (output : List Attribute) (cells : List Expr) (e : Expr) : Expr :=
  (e.stripAlias.column?.bind (cellFor? output cells)).getD e

/-- The expansion that puts out the columns of a projection over another expansion. -/
def Plan.fused (input : Plan) (projections : List (List Expr)) (output : List Attribute)
    (expressions : List Expr) : Plan :=
  .expand input (projections.map fun cells => expressions.map (Expr.passedCell output cells))
    (Plan.project (.expand input projections output) expressions).output

/-- In a row with one cell for each expression of a projection, the cell for a column is that of
the first expression that puts it out. -/
theorem cellFor?_map {expressions : List Expr} (named : ∀ e ∈ expressions, e.PassesColumn)
    (cell : Expr → Expr) (attr : Attribute) :
    cellFor? (expressions.filterMap Expr.attribute?) (expressions.map cell) attr =
      (expressions.find? fun e => e.outputId? = some attr.id).map cell := by
  induction expressions with
  | nil => rfl
  | cons e rest ih =>
    obtain ⟨here, others⟩ := List.forall_mem_cons.1 named
    obtain ⟨added, adds⟩ := here.exists_attribute?
    have own := Expr.outputId?_of_attribute? adds
    have later := ih others
    rw [cellFor?] at later ⊢
    rw [List.filterMap_cons_some adds, List.map_cons, List.zip_cons_cons, List.find?_cons,
      List.find?_cons, own]
    by_cases same : added.id = attr.id
    · simp only [same, decide_true, Option.map_some]
    · simp only [same, Option.some.injEq, decide_false]
      exact later

namespace ExpansionRow

/-- Through a projection, a column reads what the row has for the column that is passed on. -/
theorem inputValue?_of_project? {x : ExpansionRow} {expressions : List Expr}
    (through : x.project? = some expressions) {attr : Attribute} {e : Expr}
    (projected : (expressions.find? fun e => e.outputId? = some attr.id) = some e) :
    x.inputValue? (.column attr) = e.stripAlias.column?.bind (cellFor? x.output x.row) := by
  rw [inputValue?, Expr.soleColumn?, Option.bind_some, position?, projected?, through,
    Option.bind_some, projected]
  change (e.stripAlias.column?.bind fun inner => x.index? inner.id).bind _ = _
  cases e.stripAlias.column? with
  | none => rfl
  | some inner => exact x.value?_eq_cellFor? inner

/-- A row of an expansion under a projection and the row that has the columns of the projection
agree on these columns. -/
theorem agreesOn_fused {output : List Attribute} {cells expressions : List Expr}
    (columns : ∀ e ∈ expressions,
      ∃ attr, e.stripAlias = .column attr ∧ attr.id ∈ output.map Attribute.id)
    (long : output.length ≤ cells.length) {attr : Attribute}
    (exposed : attr.id ∈ (expressions.filterMap Expr.attribute?).map Attribute.id) :
    AgreesOn { project? := some expressions, output, row := cells }
      { project? := none
        output := expressions.filterMap Expr.attribute?
        row := expressions.map (Expr.passedCell output cells) } attr := by
  have passes : ∀ e ∈ expressions, e.PassesColumn := fun e given =>
    (columns e given).imp fun _ passed => passed.1
  have present : (expressions.find? fun e => e.outputId? = some attr.id).isSome = true := by
    obtain ⟨added, listed, same⟩ := List.mem_map.1 exposed
    obtain ⟨e, given, adds⟩ := List.mem_filterMap.1 listed
    refine List.find?_isSome.2 ⟨e, given, decide_eq_true ?_⟩
    rw [Expr.outputId?_of_attribute? adds, same]
  obtain ⟨e, projected⟩ := Option.isSome_iff_exists.1 present
  obtain ⟨inner, bare, listed⟩ := columns e (List.mem_of_find?_eq_some projected)
  obtain ⟨a, refers⟩ := exists_find?_id listed
  obtain ⟨cell, -, found⟩ := exists_cellFor? long refers
  have passed : e.stripAlias.column?.bind (cellFor? output cells) = some cell := by
    rw [Expr.column?_eq_some_iff.2 bare, Option.bind_some, found]
  refine ⟨cell, ?_, ?_⟩
  · rw [inputValue?_of_project? rfl projected, passed]
  · rw [inputValue?_column rfl, cellFor?_map passes, projected, Option.map_some, Expr.passedCell,
      passed, Option.getD_some]

end ExpansionRow

/-- An aggregate over an expansion is pushed alike through a projection that only passes columns
on, and over the expansion that puts out the columns of the projection itself. -/
theorem pushAggregate?_fused (catalog : Catalog) (scripts : ScriptCompiler) (settings : Settings)
    {input : Plan} {projections : List (List Expr)} {output : List Attribute}
    {expressions groupBy outputs : List Expr}
    (columns : ∀ e ∈ expressions,
      ∃ attr, e.stripAlias = .column attr ∧ attr.id ∈ output.map Attribute.id)
    (long : ∀ cells ∈ projections, output.length ≤ cells.length)
    (exposed : ∀ attr ∈ Expr.columnsOf (groupBy ++ outputs), attr.id ∈
      (Plan.project (.expand input projections output) expressions).output.map Attribute.id) :
    pushAggregate? catalog scripts settings
        (.aggregate (.project (.expand input projections output) expressions) groupBy outputs) =
      pushAggregate? catalog scripts settings
        (.aggregate (.fused input projections output expressions) groupBy outputs) := by
  apply Rule.push?_congr
  · rfl
  · rfl
  · intro source
    unfold Plan.groupingSets Plan.fused
    simp only [Expansion.ofPlan?, GroupingSet.decompose, Expansion.rows, List.map_map,
      List.mapM_map]
    refine Run.mapM_congr fun cells given => ?_
    refine Rule.lowerSet?_ofRow_congr fun attr held => ?_
    exact ExpansionRow.agreesOn_fused columns (long cells given) (exposed attr held)

namespace Sales

/-- Country of a sale under another name. -/
def state : Attribute := { id := ⟨64⟩, name := "state", dataType := .string }

/-- The columns of the expansion in another order, the city twice and the country renamed twice. -/
def renamed : List Expr := [.column marker,
  .aliased (.aliased (.column country) "land" ⟨63⟩) "state" ⟨64⟩, .column city,
  .aliased (.column city) "place" ⟨62⟩, .column price]

/-- The renamed columns by which the sales are grouped. -/
def renamedGroups : List Expr := [city, place, state, marker].map .column

/-- The renamed columns, the average price and the number of sales. -/
def renamedOutputs : List Expr := renamedGroups ++ [mean, .aliased count.toExpr "sales" ⟨23⟩]

end Sales

/-- The rollup over renamed columns is pushed, and pushed alike over the expansion with the renamed
columns. -/
theorem pushAggregate?_fused_renamed :
    (pushAggregate? Sales.catalog .none .allEnabled
      (.aggregate (.project (.expand Sales.scan Sales.projections Sales.output) Sales.renamed)
        Sales.renamedGroups Sales.renamedOutputs)).isSome = true ∧
    pushAggregate? Sales.catalog .none .allEnabled
        (.aggregate (.project (.expand Sales.scan Sales.projections Sales.output) Sales.renamed)
          Sales.renamedGroups Sales.renamedOutputs) =
      pushAggregate? Sales.catalog .none .allEnabled
        (.aggregate (.fused Sales.scan Sales.projections Sales.output Sales.renamed)
          Sales.renamedGroups Sales.renamedOutputs) := by
  have columns : ∀ e ∈ Sales.renamed, ∃ attr, e.stripAlias = .column attr ∧
      attr.id ∈ Sales.output.map Attribute.id := by
    simp [Sales.renamed, Expr.stripAlias, Sales.output]
  refine ⟨by decide +kernel, ?_⟩
  exact pushAggregate?_fused Sales.catalog .none .allEnabled columns (by decide) (by decide)

end Rollup
