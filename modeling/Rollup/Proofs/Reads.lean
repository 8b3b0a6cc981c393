import Rollup.Proofs.Lowered
import Rollup.Proofs.Substitution

/-!
# Columns that dimensions read

A grouping set must not be grouped by a column that is absent from it. What a native dimension
reads is therefore traced back to a column of the grouping expression: it is named in what that
column stands for in the row of the expansion, so a column that the row nulls out is not read. A
part of a point in time is the exception. It is looked for in the grouping expression itself, and
the row is not asked.
-/

namespace Rollup

/-- A column, under its name in the store, names a column of the relation or its time column. -/
def Relation.Names (r : Relation) (attr : Attribute) (name : String) : Prop :=
  r.isTimeColumn attr.name = true ∧ name = r.timeColumn ∨
    ∃ column, r.column? attr.name = some column ∧ name = column.name

/-- The dimension is no script. -/
def Dimension.isNative (d : Dimension) : Bool :=
  match d.extraction? with
  | some (.script _) => false
  | _ => true

/-- The expression takes a part of a point in time. -/
def Expr.isTimePart (e : Expr) : Bool :=
  match e.stripAlias.stripCasts with
  | .scalar func _ => (TimeExtraction.partFormat? func).isSome
  | _ => false

namespace Scope

/-- A store column is read through a column of an expression: it is named in what that column
stands for, which is not null and is part of what the expression stands for. -/
def Reads (s : Scope) (r : Relation) (e : Expr) (name : String) : Prop :=
  ∃ attr ∈ e.columns, (s.resolve (.column attr)).isNullLiteral = false ∧
    ∃ store ∈ (s.resolve (.column attr)).columns,
      store ∈ (s.resolve e).columns ∧ r.Names store name

/-- A store column is named by a column of an expression, whatever the row of the expansion has for
that column. -/
def ReadsUnresolved (s : Scope) (r : Relation) (e : Expr) (name : String) : Prop :=
  ∃ store ∈ (s.withStoreNames e).columns, r.Names store name

/-- The columns of what an expression stands for are those of what its columns stand for. -/
theorem columns_resolve (s : Scope) (e : Expr) :
    (s.resolve e).columns = e.columns.flatMap fun attr => (s.resolve (.column attr)).columns := by
  rw [resolve_eq_mapColumns, Expr.columns_mapColumns]
  rfl

/-- A store column that is named in what an expression stands for is read through one of its
columns. -/
theorem reads_of_mem {s : Scope} {r : Relation} {e : Expr} {name : String} {store : Attribute}
    (held : store ∈ (s.resolve e).columns) (names : r.Names store name) : s.Reads r e name := by
  have through := held
  rw [columns_resolve] at through
  obtain ⟨attr, given, here⟩ := List.mem_flatMap.1 through
  refine ⟨attr, given, ?_, store, here, held, names⟩
  cases null : (s.resolve (.column attr)).isNullLiteral with
  | false => rfl
  | true =>
    rw [Expr.columns_of_isNullLiteral null] at here
    cases here

end Scope

/-- A dimension that is found under the name of a column is named by it. -/
theorem Relation.names_of_dimension? {r : Relation} {attr : Attribute} {column : Column}
    (found : r.dimension? attr.name = some column) : r.Names attr column.name :=
  Or.inr ⟨column, (dimension?_eq_some_iff.1 found).1, rfl⟩

/-- A point in time is read from a column of its expression. -/
theorem TimeSource.exists_names {r : Relation} {e : Expr} {time : TimeSource}
    (found : ofExpr? r e = some time) (format timezone : String) :
    ∃ attr ∈ e.columns, r.Names attr (time.format format timezone).source := by
  unfold ofExpr? at found
  split at found
  · rename_i attr bare
    split at found
    · rename_i isTime
      cases found
      refine ⟨attr, ?_, Or.inl ⟨isTime, rfl⟩⟩
      rw [← Expr.columns_stripCasts, bare, Expr.columns]
      exact List.mem_cons_self
    · cases found
  · rename_i text written call
    split at found
    · rename_i attr bare
      split at found
      · rename_i dimension inputFormat isDimension isFormat
        cases found
        refine ⟨attr, Expr.columns_subset_of_arg call List.mem_cons_self ?_,
          Relation.names_of_dimension? isDimension⟩
        rw [← Expr.columns_stripCasts, bare, Expr.columns]
        exact List.mem_cons_self
      · cases found
    · cases found
  · cases found

namespace TimeExtraction

variable {r : Relation} {e : Expr} {time : TimeExtraction}

/-- A written point in time is read from a column of its expression. -/
theorem exists_names {format timezone : String} (found : of? r e format timezone = some time) :
    ∃ attr ∈ e.columns, r.Names attr time.source := by
  unfold of? at found
  split at found
  · obtain ⟨point, read, rfl⟩ := Option.map_eq_some_iff.1 found
    exact TimeSource.exists_names read format timezone
  · cases found

/-- A formatted point in time is an argument of a call, written in some format of some zone. -/
theorem exists_of?_of_ofFormat? {zone : String} (found : ofFormat? r zone e = some time) :
    ∃ args, e.stripCasts = .scalar .dateFormat args ∧
      ∃ point ∈ args, ∃ format zone, of? r point format zone = some time := by
  unfold ofFormat? at found
  split at found
  · rename_i point format call
    obtain ⟨format, -, found⟩ := Option.bind_eq_some_iff.1 found
    exact ⟨_, call, point, List.mem_cons_self, format, _, found⟩
  · rename_i point format zone call
    obtain ⟨format, -, found⟩ := Option.bind_eq_some_iff.1 found
    obtain ⟨zone, -, found⟩ := Option.bind_eq_some_iff.1 found
    exact ⟨_, call, point, List.mem_cons_self, format, zone, found⟩
  · cases found

/-- A part of a point in time is the argument of a call, written in the format of that part. -/
theorem exists_of?_of_ofPart? {zone : String} (found : ofPart? r zone e = some time) :
    ∃ func point format, e.stripAlias.stripCasts = .scalar func [point] ∧
      partFormat? func = some format ∧ of? r point format zone = some time := by
  unfold ofPart? at found
  split at found
  · rename_i func point call
    obtain ⟨format, takes, found⟩ := Option.bind_eq_some_iff.1 found
    exact ⟨func, point, format, call, takes, found⟩
  · cases found

/-- A formatted point in time is read from a column of the call. -/
theorem exists_names_of_ofFormat? {zone : String} (found : ofFormat? r zone e = some time) :
    ∃ attr ∈ e.columns, r.Names attr time.source := by
  obtain ⟨args, call, point, given, format, zone, found⟩ := exists_of?_of_ofFormat? found
  obtain ⟨attr, held, names⟩ := exists_names found
  exact ⟨attr, Expr.columns_subset_of_arg call given held, names⟩

/-- A part of a point in time is read from a column of the call that takes it. -/
theorem exists_names_of_ofPart? {zone : String} (found : ofPart? r zone e = some time) :
    e.isTimePart = true ∧ ∃ attr ∈ e.columns, r.Names attr time.source := by
  obtain ⟨func, point, format, call, takes, found⟩ := exists_of?_of_ofPart? found
  obtain ⟨attr, held, names⟩ := exists_names found
  refine ⟨?_, attr, ?_, names⟩
  · rw [Expr.isTimePart, call]
    exact Option.isSome_iff_exists.2 ⟨format, takes⟩
  · rw [← Expr.columns_stripAlias]
    exact Expr.columns_subset_of_arg call List.mem_cons_self held

end TimeExtraction

/-- Renaming columns does not change whether an expression takes a part of a point in time. -/
theorem Expr.Renames.isTimePart_mapColumns {f : Attribute → Option Expr} (renames : Renames f)
    (e : Expr) : (e.mapColumns f).isTimePart = e.isTimePart := by
  rw [isTimePart, renames.stripAlias_mapColumns, renames.stripCasts_mapColumns, isTimePart]
  cases e.stripAlias.stripCasts with
  | column attr =>
    obtain ⟨renamed, same⟩ := renames.exists_column attr
    rw [same]
  | literal | aliased | cast | scalar | binary | aggregate => rw [mapColumns]

namespace Scope

/-- Columns are named after store columns. -/
theorem renames_storeColumn? (s : Scope) : Expr.Renames s.storeColumn? := by
  intro attr e found
  obtain ⟨name, -, rfl⟩ := Option.map_eq_some_iff.1 found
  exact ⟨_, rfl⟩

/-- The dimension that is appended is the one that is recorded. -/
theorem eq_of_recordDimension {q : Query} {choice : String × Query} (chosen : q.Chooses choice)
    {d recorded : Dimension} {group : Expr} {storeType : StoreType}
    (added : (recordDimension choice.2 recorded group storeType).dimensions =
      q.dimensions ++ [d]) : recorded = d := by
  obtain ⟨k, kept⟩ := chosen.kept
  rw [kept] at added
  exact List.singleton_inj.1 (List.append_cancel_left added)

/-- What a native dimension reads is named in what the grouping expression stands for, or else the
expression takes a part of a point in time and names it itself. -/
theorem GroupedBy.reads {s : Scope} {q q' : Query} {group expanded : Expr}
    (grouped : s.GroupedBy q group expanded q')
    (stands : s.withStoreNames expanded = s.resolve group) {d : Dimension}
    (added : q'.dimensions = q.dimensions ++ [d]) (native : d.isNative = true) :
    s.Reads q.relation group d.source ∨
      group.isTimePart = true ∧ s.ReadsUnresolved q.relation group d.source := by
  have chosen := q.chooses_outputName group.outputName?
  cases grouped with
  | direct bare found =>
    cases eq_of_recordDimension chosen added
    refine Or.inl (reads_of_mem ?_ (Relation.names_of_dimension? found))
    rw [← stands, ← Expr.columns_stripAlias, bare, Expr.columns]
    exact List.mem_cons_self
  | formatted found =>
    cases eq_of_recordDimension chosen added
    obtain ⟨attr, held, names⟩ := TimeExtraction.exists_names_of_ofFormat? found
    rw [Expr.columns_stripAlias, stands] at held
    exact Or.inl (reads_of_mem held names)
  | part found =>
    cases eq_of_recordDimension chosen added
    obtain ⟨takes, named⟩ := TimeExtraction.exists_names_of_ofPart? found
    rw [withStoreNames, s.renames_storeColumn?.isTimePart_mapColumns] at takes
    exact Or.inr ⟨takes, named⟩
  | script =>
    cases eq_of_recordDimension q.chooses_freshAlias added
    cases native

end Scope

/-- Every native dimension of a query stands for a grouping expression and reads a store column
through a column of that expression which is present in the set. Only an expression that takes a
part of a point in time may read what it names itself, whether present or not. -/
def Query.ReadsPresent (q : Query) (s : Scope) (groupBy : List Expr) : Prop :=
  ∀ d ∈ q.dimensions, d.isNative = true →
    ∃ r, q.result? d.outputName = some r ∧ r.expr ∈ groupBy ∧
      (s.Reads q.relation r.expr d.source ∨
        r.expr.isTimePart = true ∧ s.ReadsUnresolved q.relation r.expr d.source)

/-- A lowered query is over the relation of the source. -/
theorem Rule.Lowers.relation {rule : Rule} {source : Source} {set : GroupingSet}
    {pushed : PushedSet} (lowers : rule.Lowers source set pushed) :
    pushed.query.relation = source.query.relation :=
  lowers.keeps (P := fun q => q.relation = source.query.relation) rfl
    (fun _ _ _ _ before grouped => grouped.extended.relation.trans before)
    fun _ _ _ _ before computed => computed.extended.relation.trans before

/-- A grouping set is grouped by no column that is absent from it: in every row of an expansion,
native dimensions read store columns through columns that the row does not null out, up to parts of
points in time. -/
theorem readsPresent_of_pushAggregate? {catalog : Catalog} {scripts : ScriptCompiler}
    {settings : Settings} {input : Plan} {groupBy outputs : List Expr} {x : Expansion}
    {source : Source} {p : PushedAggregate} (expanded : Expansion.ofPlan? input = some x)
    (known : Source.ofPlan? catalog x.input = some source)
    (pushed : pushAggregate? catalog scripts settings (.aggregate input groupBy outputs) =
      some p) :
    List.Forall₂ (fun row set => set.query.ReadsPresent
      ((Rule.ofCatalog catalog scripts settings).scope source (.ofRow groupBy outputs row))
      groupBy) x.rows p.sets := by
  obtain ⟨source', known', lowered⟩ := Rule.exists_source_of_expansion expanded pushed
  cases known.symm.trans known'
  obtain ⟨r, empty⟩ := Source.query_eq_of_ofPlan? known
  refine lowered.imp ?_
  intro row set lowers d held native
  obtain ⟨ds, each, added⟩ := lowers.dimensions
  rw [added, empty, List.nil_append] at held
  obtain ⟨pair, candidate, ⟨r, result, expr⟩, q, q', reached, grouped, here⟩ :=
    Run.exists_item each held
  rw [GroupingSet.dimensions_ofRow] at candidate
  obtain ⟨g, given, rfl⟩ := List.mem_map.1 (List.mem_filter.1 candidate).1
  refine ⟨r, result, expr ▸ given, ?_⟩
  rw [expr, lowers.relation, ← reached.relation]
  exact grouped.reads rfl here native

namespace Sales

/-- Time of a sale, as the scan puts it out. -/
def scannedTime : Attribute := { id := ⟨4⟩, name := "ts", dataType := .timestamp }

/-- Time of a sale, or null outside the sets that have it. -/
def time : Attribute := { id := ⟨14⟩, name := "ts", dataType := .timestamp }

/-- Year of a sale. -/
def year : Expr := .aliased (.scalar .year [.column time]) "year" ⟨31⟩

/-- The expansion by city and year, and by city. -/
def timeline : Expansion where
  project? := none
  projections := [
    [.column scannedTime, .column scannedCity, .literal (.int 0) .int64],
    [.null .timestamp, .column scannedCity, .literal (.int 1) .int64]]
  output := [time, city, marker]
  input := .scan "sales" [scannedCity, scannedTime]

/-- The row of this expansion that nulls out the time. -/
def timeless : ExpansionRow where
  project? := none
  output := timeline.output
  row := [.null .timestamp, .column scannedCity, .literal (.int 1) .int64]

/-- Expressions by which the host groups this expansion. -/
def timelineGroups : List Expr := [year, .column city, .column marker]

/-- Outputs of the number of sales over this expansion. -/
def timelineOutputs : List Expr := timelineGroups ++ [.aliased count.toExpr "sales" ⟨23⟩]

/-- The number of sales by city and year, and by city. -/
def yearly : Plan :=
  .aggregate (.expand timeline.input timeline.projections timeline.output) timelineGroups
    timelineOutputs

/-- Surroundings of the expressions of the sales in a row of this expansion. -/
def timelineScope (row : ExpansionRow) : Scope :=
  (Rule.ofCatalog catalog .none .allEnabled).scope { query := { relation } }
    (.ofRow timelineGroups timelineOutputs row)

/-- The columns by which the sales are grouped in each row of the expansion. -/
theorem dimensions_yearly :
    ((pushAggregate? catalog .none .allEnabled yearly).map fun p =>
      p.sets.map fun set => set.query.dimensions) = some [
        [{ source := "ts", outputName := "year", extraction? := some (.timeFormat "yyyy" "UTC") },
          { source := "city", outputName := "city" }],
        [{ source := "ts", outputName := "year", extraction? := some (.timeFormat "yyyy" "UTC") },
          { source := "city", outputName := "city" }]] := by
  decide +kernel

end Sales

/-- The sales by city and year read columns that are present, up to the year. -/
theorem readsPresent_yearly :
    ∃ p, pushAggregate? Sales.catalog .none .allEnabled Sales.yearly = some p ∧
      p.sets.length = 2 ∧
      List.Forall₂ (fun row set =>
        set.query.ReadsPresent (Sales.timelineScope row) Sales.timelineGroups)
        Sales.timeline.rows p.sets := by
  obtain ⟨p, pushed, dimensions⟩ := Option.map_eq_some_iff.1 Sales.dimensions_yearly
  have each := readsPresent_of_pushAggregate? (x := Sales.timeline) rfl rfl pushed
  exact ⟨p, pushed, each.length_eq.symm, each⟩

/-- Where the row of the expansion nulls out the time, the sales are still grouped by its year,
although what the year stands for in that row reads no column at all. -/
theorem not_reads_year :
    ∃ p first second, pushAggregate? Sales.catalog .none .allEnabled Sales.yearly = some p ∧
      p.sets = [first, second] ∧ Sales.timeline.rows[1]? = some Sales.timeless ∧
      (∃ d ∈ second.query.dimensions, d.isNative = true ∧ d.outputName = "year" ∧
        d.source = "ts") ∧
      ¬ ∃ attr ∈ ((Sales.timelineScope Sales.timeless).resolve Sales.year).columns,
        second.query.relation.Names attr "ts" := by
  obtain ⟨p, pushed, dimensions⟩ := Option.map_eq_some_iff.1 Sales.dimensions_yearly
  obtain ⟨first, rest, sets, -, others⟩ := List.map_eq_cons_iff.1 dimensions
  obtain ⟨second, rfl, same⟩ := List.map_eq_singleton_iff.1 others
  refine ⟨p, first, second, pushed, sets, rfl, ⟨_, same ▸ List.mem_cons_self, rfl, rfl, rfl⟩, ?_⟩
  rintro ⟨attr, held, -⟩
  have none : ((Sales.timelineScope Sales.timeless).resolve Sales.year).columns = [] := rfl
  rw [none] at held
  cases held

end Rollup
