import Rollup.Proofs.Reads

/-!
# Queries over the schema of the store

Host plans name columns in any case, under new names and through expansions and casts. What a query
says to the store is in the words of the store alone: every column that it reads by a native form
is one of its relation, in the spelling of the relation and of the kind that the form needs. Only
scripts are taken as the compiler writes them.
-/

namespace Rollup

/-- Aggregators over a numeric column: the long ones for integers, the double ones otherwise. -/
def NativeFunction.forType (type : DataType) : List NativeFunction :=
  if type.isIntegral then [longSum, longMin, longMax] else [doubleSum, doubleMin, doubleMax]

namespace Relation

/-- The name is that of a dimension other than time, as the relation spells it. -/
def HasDimension (r : Relation) (name : String) : Prop :=
  ∃ column, r.column? name = some column ∧ column.name = name ∧ column.kind = .dimension ∧
    r.isTimeColumn name = false

/-- The name is that of a numeric metric, as the relation spells it, to whose type the aggregator
belongs. -/
def HasMetric (r : Relation) (function : NativeFunction) (name : String) : Prop :=
  ∃ column, r.column? name = some column ∧ column.name = name ∧ column.kind = .metric ∧
    column.dataType.isNumeric = true ∧ function ∈ NativeFunction.forType column.dataType

/-- A column that is found is found by its own name too. -/
theorem column?_name {r : Relation} {name : String} {column : Column}
    (found : r.column? name = some column) : r.column? column.name = some column := by
  have same : Text.sameName column.name name = true :=
    List.find?_some (p := fun c : Column => Text.sameName c.name name) found
  rw [r.column?_congr (Text.sameName_iff.1 same), found]

/-- A dimension that is found is one of the relation, under its own name. -/
theorem hasDimension_of_dimension? {r : Relation} {name : String} {column : Column}
    (found : r.dimension? name = some column) : r.HasDimension column.name := by
  obtain ⟨found, isDimension, untimed⟩ := dimension?_eq_some_iff.1 found
  exact ⟨column, column?_name found, rfl, isDimension, untimed⟩

end Relation

/-- What an extraction reads is the time column or another dimension, in a known zone; what a script
reads is not told. Scripts occur only under a condition. -/
def Extraction.Fits (r : Relation) (scripted : Prop) (source : String) : Extraction → Prop
  | timeFormat _ zone => source = r.timeColumn ∧ Timezone.isKnown zone = true
  | timeParse _ _ zone => r.HasDimension source ∧ Timezone.isKnown zone = true
  | script _ => scripted

/-- A dimension that is read as it is is one of the relation. -/
def Dimension.Fits (r : Relation) (scripted : Prop) (d : Dimension) : Prop :=
  match d.extraction? with
  | none => r.HasDimension d.source
  | some extraction => extraction.Fits r scripted d.source

/-- An aggregator takes a numeric metric of its type, or sums the metric that holds the number of
rows; rows are counted only if there is no such metric. Distinct values are counted of one
dimension, or from the sketch of a column if the relation prefers sketches. Scripts occur only under
a condition. -/
def Aggregation.Fits (r : Relation) (scripted : Prop) : Aggregation → Prop
  | native function _ (some field) => r.HasMetric function field ∨
    function = .longSum ∧ ∃ column, r.rowCount? = some column ∧ column.name = field
  | native function _ none => function = .count ∧ r.rowCount? = none
  | cardinality _ fields => ∃ column, r.column? column.name = some column ∧
    column.kind = .dimension ∧ fields = [column.name]
  | hyperUnique _ field => r.prefersSketches = true ∧
    ∃ column ∈ r.columns, column.sketch? = some field
  | script _ _ => scripted

/-- A query refers to the schema of its own relation; scripts occur in it only under a
condition. -/
structure Query.FitsSchema (q : Query) (scripted : Prop) : Prop where
  dimensions : ∀ d ∈ q.dimensions, d.Fits q.relation scripted
  aggregations : ∀ a ∈ q.aggregations, a.Fits q.relation scripted

variable {r : Relation} {scripted : Prop}

namespace TimeExtraction

variable {e : Expr} {time : TimeExtraction} {zone : String}

/-- A point in time is read from the time column or from a dimension. -/
theorem fits_of_ofExpr? {point : TimeSource} (found : TimeSource.ofExpr? r e = some point)
    (known : Timezone.isKnown zone = true) (format : String) :
    (point.format format zone).extraction.Fits r scripted (point.format format zone).source := by
  unfold TimeSource.ofExpr? at found
  split at found
  · split at found
    · cases found
      exact ⟨rfl, known⟩
    · cases found
  · split at found
    · split at found
      · rename_i dimension inputFormat isDimension isFormat
        cases found
        exact ⟨Relation.hasDimension_of_dimension? isDimension, known⟩
      · cases found
    · cases found
  · cases found

/-- A written point in time fits the relation, and its zone is known. -/
theorem fits_of_of? {format : String} (found : of? r e format zone = some time) :
    time.extraction.Fits r scripted time.source := by
  unfold of? at found
  split at found
  · rename_i known
    obtain ⟨point, read, rfl⟩ := Option.map_eq_some_iff.1 found
    exact fits_of_ofExpr? read known format
  · cases found

end TimeExtraction

namespace Scope

variable {s : Scope} {q q' : Query}

/-- The column that an aggregate is taken of is found by its own name. -/
theorem column?_of_argumentColumn? {call : AggregateCall} {column : Column}
    (argument : s.argumentColumn? q call = some column) :
    q.relation.column? column.name = some column := by
  obtain ⟨arg, -, argument⟩ := Option.bind_eq_some_iff.1 argument
  obtain ⟨attr, -, found⟩ := Option.bind_eq_some_iff.1 argument
  exact Relation.column?_name found

/-- The aggregator for a metric belongs to its type. -/
theorem mem_forType_of_nativeFunction? {func : AggregateFunction} {type : DataType}
    {function : NativeFunction} (found : nativeFunction? func type = some function) :
    function ∈ NativeFunction.forType type := by
  unfold NativeFunction.forType
  cases integral : type.isIntegral <;> cases func <;>
    simp only [nativeFunction?, integral, Option.some.injEq, reduceCtorEq] at found <;>
    subst found <;> decide

/-- A row count sums the metric that holds the number of rows, or counts if there is none. -/
theorem fits_rowCount (r : Relation) (name : String) : (rowCount r name).Fits r scripted := by
  unfold rowCount
  split
  · rename_i metric found
    exact Or.inr ⟨rfl, metric, found, rfl⟩
  · rename_i missing
    exact ⟨rfl, missing⟩

/-- A count of distinct values takes the sketch of a column or the column itself. -/
theorem fits_of_distinctCount? {column : Column} {aggregation : String → Aggregation}
    (known : r.column? column.name = some column)
    (found : distinctCount? r column = some aggregation) (name : String) :
    (aggregation name).Fits r scripted := by
  unfold distinctCount? at found
  split at found
  · rename_i sketch chosen
    cases found
    split at chosen
    · rename_i prefers
      exact ⟨prefers, column, Relation.mem_of_column? known, chosen⟩
    · cases chosen
  · split at found
    · rename_i isDimension
      cases found
      exact ⟨column, known, beq_iff_eq.1 isDimension, rfl⟩
    · cases found

/-- Scripts are compiled only under a condition. -/
def Scripted (s : Scope) (scripted : Prop) : Prop :=
  ∀ q e kind function, s.compile? q e kind = some function → scripted

/-- Scripts are compiled only if they are allowed. -/
theorem scripted_scriptFallback (s : Scope) : s.Scripted (s.settings.scriptFallback = true) := by
  intro q e kind function compiled
  unfold compile? at compiled
  split at compiled
  · assumption
  · cases compiled

/-- A grouping expression becomes a dimension that fits the relation. -/
theorem GroupedBy.fits {group expanded : Expr} (grouped : s.GroupedBy q group expanded q')
    (only : s.Scripted scripted) :
    ∃ d, q'.dimensions = q.dimensions ++ [d] ∧ d.Fits q.relation scripted := by
  have named := q.chooses_outputName group.outputName?
  cases grouped with
  | direct _ found =>
    exact ⟨_, (recordDimension_eq named rfl group _).2.1,
      Relation.hasDimension_of_dimension? found⟩
  | formatted found =>
    obtain ⟨_, -, point, -, format, zone, written⟩ :=
      TimeExtraction.exists_of?_of_ofFormat? found
    exact ⟨_, (recordDimension_eq named rfl group _).2.1, TimeExtraction.fits_of_of? written⟩
  | part found =>
    obtain ⟨_, point, format, -, -, written⟩ := TimeExtraction.exists_of?_of_ofPart? found
    exact ⟨_, (recordDimension_eq named rfl group _).2.1, TimeExtraction.fits_of_of? written⟩
  | script compiled =>
    exact ⟨_, (recordDimension_eq q.chooses_freshAlias rfl group _).2.1, only _ _ _ _ compiled⟩

/-- An aggregate is computed by aggregations that fit the relation. -/
theorem ComputedBy.fits {call : AggregateCall} (computed : s.ComputedBy q call q')
    (only : s.Scripted scripted) :
    ∃ added, q'.aggregations = q.aggregations ++ added ∧
      ∀ a ∈ added, a.Fits q.relation scripted := by
  cases computed with
  | rowCount => exact ⟨_, rfl, List.forall_mem_singleton.2 (fits_rowCount _ _)⟩
  | distinctCount _ _ argument found =>
    have known := column?_of_argumentColumn? argument
    exact ⟨_, rfl, List.forall_mem_singleton.2 (fits_of_distinctCount? known found _)⟩
  | metric _ _ argument isMetric numeric _ found =>
    have known := column?_of_argumentColumn? argument
    have metric : q.relation.HasMetric _ _ :=
      ⟨_, known, rfl, isMetric, numeric, mem_forType_of_nativeFunction? found⟩
    exact ⟨_, rfl, List.forall_mem_singleton.2 (Or.inl metric)⟩
  | average _ _ _ argument isMetric numeric found =>
    obtain ⟨_, _, _, aggregations, -, -⟩ := addAverage_eq q call _ _
    have known := column?_of_argumentColumn? argument
    have metric : q.relation.HasMetric _ _ :=
      ⟨_, known, rfl, isMetric, numeric, mem_forType_of_nativeFunction? found⟩
    refine ⟨_, aggregations, List.forall_mem_cons.2 ⟨Or.inl metric, ?_⟩⟩
    exact List.forall_mem_singleton.2 (fits_rowCount _ _)
  | script compiled =>
    exact ⟨_, rfl, List.forall_mem_singleton.2 (only _ _ _ _ compiled)⟩
  | scriptAverage _ sumCompiled countCompiled =>
    obtain ⟨_, _, _, aggregations, -, -⟩ := addAverage_eq q call _ _
    refine ⟨_, aggregations, List.forall_mem_cons.2 ⟨only _ _ _ _ sumCompiled, ?_⟩⟩
    exact List.forall_mem_singleton.2 (only _ _ _ _ countCompiled)

end Scope

namespace Rule

variable {rule : Rule}

/-- A lowered query is over the relation of the source and fits its schema. -/
theorem Lowers.fitsSchema {source : Source} {set : GroupingSet} {pushed : PushedSet}
    (lowers : rule.Lowers source set pushed) (empty : source.query = { relation := r })
    (only : (rule.scope source set).Scripted scripted) :
    pushed.query.relation = r ∧ pushed.query.FitsSchema scripted := by
  have relation : pushed.query.relation = r := by rw [lowers.relation, empty]
  have fits := lowers.specs empty (D := Dimension.Fits r scripted)
    (A := Aggregation.Fits r scripted)
    (fun q q' group expanded same grouped => same ▸ grouped.fits only)
    (fun q q' call same computed => same ▸ computed.fits only)
  exact ⟨relation, relation.symm ▸ fits.1, relation.symm ▸ fits.2⟩

/-- The queries of a pushed aggregate are over one relation of the catalog and fit its schema. -/
theorem fitsSchema_of_push? {catalog : Catalog} {scripts : ScriptCompiler} {settings : Settings}
    {plan : Plan} {p : PushedAggregate}
    (only : ∀ source set,
      ((ofCatalog catalog scripts settings).scope source set).Scripted scripted)
    (pushed : (ofCatalog catalog scripts settings).push? plan = some p) :
    ∃ table r, catalog.relation? table = some r ∧
      ∀ set ∈ p.sets, set.query.relation = r ∧ set.query.FitsSchema scripted := by
  obtain ⟨input, groupBy, outputs, rfl⟩ := exists_aggregate_of_push? pushed
  obtain ⟨source, known, -, lowered⟩ := exists_source_of_push? pushed
  obtain ⟨table, r, found, empty⟩ := Source.exists_relation_of_ofPlan? known
  refine ⟨table, r, found, ?_⟩
  intro set given
  obtain ⟨groupingSet, -, lowers⟩ := Run.exists_item lowered given
  exact lowers.fitsSchema empty (only source groupingSet)

end Rule

/-- The queries of a pushed aggregate are over one relation of the catalog. Whatever names the plan
uses, they refer to the schema of that relation, and they have scripts only if these are
allowed. -/
theorem fitsSchema_of_pushAggregate? {catalog : Catalog} {scripts : ScriptCompiler}
    {settings : Settings} {plan : Plan} {p : PushedAggregate}
    (pushed : pushAggregate? catalog scripts settings plan = some p) :
    ∃ table r, catalog.relation? table = some r ∧ ∀ set ∈ p.sets,
      set.query.relation = r ∧ set.query.FitsSchema (settings.scriptFallback = true) :=
  Rule.fitsSchema_of_push? (fun _ _ => Scope.scripted_scriptFallback _) pushed

namespace Orders

/-- Orders by city, with a sketch of the cities and the day of the order as text. -/
def relation : Relation where
  name := "orders"
  timeColumn := "ts"
  columns := [
    { name := "city", kind := .dimension, dataType := .string, sketch? := some "cities" },
    { name := "Ordered", kind := .dimension, dataType := .string },
    { name := "price", kind := .metric, dataType := .float64 },
    { name := "items", kind := .metric, dataType := .int32 }]
  prefersSketches := true

/-- A column of the scan, which writes all names in capitals. -/
def scanned (id : Nat) (name : String) (dataType : DataType) : Expr :=
  .column { id := ⟨id⟩, name, dataType }

/-- A text constant. -/
def text (value : String) : Expr := .literal (.string value) .string

/-- Orders by city, by year and by the month of the day that is held as text. -/
def groupBy : List Expr := [
  .aliased (scanned 1 "CITY" .string) "town" ⟨11⟩,
  .aliased (.scalar .dateFormat [scanned 2 "TS" .timestamp, text "yyyy"]) "year" ⟨12⟩,
  .aliased (.scalar .dateFormat [.scalar .toTimestamp [scanned 3 "ORDERED" .string, text "dd/MM"],
    text "MM", text "Europe/Paris"]) "month" ⟨13⟩]

/-- An aggregate of the orders. -/
def call (id : Nat) (func : AggregateFunction) (dataType : DataType) (args : List Expr) : Expr :=
  .aggregate { id := ⟨id⟩, func, dataType } args

/-- The takings, the largest order, the number of orders, of cities and of days. -/
def outputs : List Expr := [
  call 21 .sum .float64 [scanned 4 "PRICE" .float64],
  call 22 .max .int64 [.cast (scanned 5 "ITEMS" .int32) .int64],
  call 23 .count .int64 [],
  call 24 .approxCountDistinct .int64 [scanned 1 "CITY" .string],
  call 25 .approxCountDistinct .int64 [scanned 3 "ORDERED" .string]]

/-- The aggregates of the orders. -/
def plan : Plan := .aggregate (.scan "ORDERS" []) groupBy outputs

/-- The dimensions and aggregations of the query for these aggregates. -/
theorem specs_plan :
    ((pushAggregate? (.ofList [relation]) .none .allEnabled plan).map fun p =>
      p.sets.map fun set => (set.query.dimensions, set.query.aggregations)) = some [(
        [{ source := "city", outputName := "town" },
          { source := "ts", outputName := "year", extraction? := some (.timeFormat "yyyy" "UTC") },
          { source := "Ordered", outputName := "month",
            extraction? := some (.timeParse "dd/MM" "MM" "Europe/Paris") }],
        [.native .doubleSum "alias-0" (some "price"), .native .longMax "alias-1" (some "items"),
          .native .count "alias-2" none, .hyperUnique "alias-3" "cities",
          .cardinality "alias-4" ["Ordered"]])] := by
  decide +kernel

end Orders

/-- The plan over the orders names all columns in capitals; its query names them as the relation
does. -/
theorem fitsSchema_orders :
    ∃ p, pushAggregate? (.ofList [Orders.relation]) .none .allEnabled Orders.plan = some p ∧
      p.sets.length = 1 ∧
      ∃ table r, (Catalog.ofList [Orders.relation]).relation? table = some r ∧ ∀ set ∈ p.sets,
        set.query.relation = r ∧
          set.query.FitsSchema (Settings.allEnabled.scriptFallback = true) := by
  obtain ⟨p, pushed, specs⟩ := Option.map_eq_some_iff.1 Orders.specs_plan
  have single : p.sets.length = 1 := by simpa using congrArg List.length specs
  exact ⟨p, pushed, single, fitsSchema_of_pushAggregate? pushed⟩

end Rollup
