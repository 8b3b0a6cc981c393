import Rollup.Proofs.Schema
import Rollup.Proofs.Values

/-!
# What scripts change

Scripts stand in where the store has no native form, and nowhere else. An average of anything but a
metric is given to the scripts before the native forms are tried, but it has none: every lowering
is the native form, or else the scripted one. Native forms do not ask the compiler, so what is
pushed with some scripts is pushed alike with more of them, and scripts that are not allowed are no
better than none.
-/

namespace Rollup

/-- Every script of the first compiler is a script of the second. -/
def ScriptCompiler.IncludedIn (weak strong : ScriptCompiler) : Prop :=
  ∀ q e kind timezone function,
    weak q e kind timezone = .ok function → strong q e kind timezone = .ok function

/-- A store without scripts has none that another store lacks. -/
theorem ScriptCompiler.none_includedIn (scripts : ScriptCompiler) : none.IncludedIn scripts := by
  intro q e kind timezone function compiled
  cases compiled

/-- What is found first, or else by a fallback, is found by every better fallback. -/
theorem or_eq_some_mono {α : Type} {native weak strong : Option α} {a : α}
    (better : weak = some a → strong = some a) (found : native.or weak = some a) :
    native.or strong = some a := by
  rcases Option.or_eq_some_iff.1 found with first | ⟨missing, second⟩
  · exact Option.or_eq_some_iff.2 (Or.inl first)
  · exact Option.or_eq_some_iff.2 (Or.inr ⟨missing, better second⟩)

namespace Scope

/-- The scope with another compiler, which is allowed or not. -/
def withScripts (s : Scope) (scripts : ScriptCompiler) (allowed : Bool) : Scope :=
  { s with scripts, settings := { s.settings with scriptFallback := allowed } }

/-- Under another compiler, every expression that had a script has the same one. -/
def KeepsScripts (s : Scope) (scripts : ScriptCompiler) (allowed : Bool) : Prop :=
  ∀ q e kind function, s.compile? q e kind = some function →
    (s.withScripts scripts allowed).compile? q e kind = some function

/-- The aggregate is an average, but not that of a metric. -/
def averagesOther (s : Scope) (q : Query) (call : AggregateCall) : Bool :=
  call.func == .avg && !call.distinct &&
    !(s.argumentColumn? q call).any fun column => column.kind == .metric

/-- A grouping expression as a dimension without a script. -/
def nativeGroup? (s : Scope) (q : Query) (group expanded : Expr) : Option Query :=
  (directDimension? q group expanded).or <|
    (s.timeFormatDimension? q group expanded).or (s.timePartDimension? q group)

/-- An aggregate computed without scripts. -/
def nativeForm? (s : Scope) (q : Query) (call : AggregateCall) : Option Query :=
  (s.rowCountCall? q call).or (s.nativeCall? q call)

/-- An aggregate computed by scripts: an average by two, unless it is that of a metric. -/
def scriptForm? (s : Scope) (q : Query) (call : AggregateCall) : Option Query :=
  if s.averagesOther q call then s.scriptAverage? q call else s.scriptCall? q call

variable {s : Scope} {scripts : ScriptCompiler} {allowed : Bool} {q q' : Query}
  {call : AggregateCall} {group expanded : Expr}

/-- Where scripts are not allowed, nothing is compiled. -/
theorem compile?_of_disallowed (disallowed : s.settings.scriptFallback = false) (q : Query)
    (e : Expr) (kind : ScriptScope) : s.compile? q e kind = none := by
  rw [compile?, disallowed]
  rfl

/-- Where nothing is compiled, there are no scripts to keep. -/
theorem keepsScripts_of_none (nothing : ∀ q e kind, s.compile? q e kind = none)
    (scripts : ScriptCompiler) (allowed : Bool) : s.KeepsScripts scripts allowed := by
  intro q e kind function compiled
  rw [nothing] at compiled
  cases compiled

/-- A compiler that includes the one of the scope keeps its scripts. -/
theorem keepsScripts_of_includedIn (included : s.scripts.IncludedIn scripts) :
    s.KeepsScripts scripts s.settings.scriptFallback := by
  intro q e kind function compiled
  unfold compile? at compiled ⊢
  split at compiled
  · rename_i fallback
    cases found : s.scripts q e kind s.settings.timezone with
    | error failure =>
      rw [found] at compiled
      cases compiled
    | ok other =>
      rw [found] at compiled
      cases compiled
      have kept := included q e kind s.settings.timezone function found
      simp only [withScripts, fallback, kept, Except.toOption, if_true]
  · cases compiled

/-- An average does not count rows. -/
theorem rowCountCall?_eq_none_of_avg (averages : call.func = .avg) :
    s.rowCountCall? q call = none := by
  simp [rowCountCall?, averages]

/-- An average does not count distinct values. -/
theorem distinctCall?_eq_none_of_avg (averages : call.func = .avg) :
    s.distinctCall? q call = none := by
  simp [distinctCall?, countsDistinct, averages]

/-- What is not read from a metric is no aggregate of one. -/
theorem metricCall?_eq_none
    (other : ((s.argumentColumn? q call).any fun column => column.kind == .metric) = false) :
    s.metricCall? q call = none := by
  unfold metricCall?
  split
  · rfl
  · rw [Option.bind_eq_none_iff]
    intro column argument
    rw [argument, Option.any_some] at other
    rw [other]
    rfl

/-- An average of anything but a metric has none of the native forms. -/
theorem forms_eq_none_of_averagesOther (averages : s.averagesOther q call = true) :
    s.rowCountCall? q call = none ∧ s.distinctCall? q call = none ∧
      s.metricCall? q call = none := by
  simp only [averagesOther, Bool.and_eq_true, beq_iff_eq, Bool.not_eq_true'] at averages
  obtain ⟨⟨isAverage, -⟩, other⟩ := averages
  exact ⟨rowCountCall?_eq_none_of_avg isAverage, distinctCall?_eq_none_of_avg isAverage,
    metricCall?_eq_none other⟩

/-- An average of anything but a metric has no native form. -/
theorem nativeForm?_eq_none (averages : s.averagesOther q call = true) :
    s.nativeForm? q call = none := by
  obtain ⟨noRowCount, noDistinctCount, noMetric⟩ := forms_eq_none_of_averagesOther averages
  rw [nativeForm?, noRowCount, nativeCall?, noDistinctCount, noMetric]
  split <;> rfl

/-- Where nothing is compiled, there is no scripted form. -/
theorem scriptForm?_eq_none (nothing : ∀ q e kind, s.compile? q e kind = none) (q : Query)
    (call : AggregateCall) : s.scriptForm? q call = none := by
  unfold scriptForm? scriptAverage? scriptCall?
  simp only [nothing, Option.bind_none, Option.map_none, ite_self]

/-- An average is given to the scripts at once if it is not that of a metric and scripts are
allowed. -/
theorem needsScriptAverage_eq (s : Scope) (q : Query) (call : AggregateCall) :
    s.needsScriptAverage q call = (s.averagesOther q call && s.settings.scriptFallback) := by
  unfold needsScriptAverage averagesOther
  rw [Bool.and_right_comm]

/-- An aggregate is computed in its native form, or else by scripts. -/
theorem lowerCall?_eq (s : Scope) (q : Query) (call : AggregateCall) :
    s.lowerCall? q call = if s.isOverridden call.id then some q
      else (s.nativeForm? q call).or (s.scriptForm? q call) := by
  unfold lowerCall?
  split
  · rfl
  rw [needsScriptAverage_eq, ← Option.or_assoc, ← nativeForm?]
  cases averages : s.averagesOther q call with
  | false => simp [scriptForm?, averages]
  | true =>
    rw [nativeForm?_eq_none averages, Option.none_or, Option.none_or]
    cases fallback : s.settings.scriptFallback with
    | true => simp [scriptForm?, averages]
    | false =>
      -- the native forms are tried after all, and end in a script that is not allowed
      have nothing := compile?_of_disallowed fallback
      rw [scriptForm?_eq_none nothing, scriptCall?, nothing]
      rfl

/-- A grouping expression becomes a native dimension, or else a script. -/
theorem lowerGroup?_eq (s : Scope) (q : Query) (group expanded : Expr) :
    s.lowerGroup? q group expanded =
      (s.nativeGroup? q group (s.withStoreNames expanded)).or
        (s.scriptDimension? q group (s.withStoreNames expanded)) := by
  rw [lowerGroup?, nativeGroup?, Option.or_assoc, Option.or_assoc]

/-- Scripted aggregates are kept with their scripts. -/
theorem scriptForm?_mono (kept : s.KeepsScripts scripts allowed)
    (formed : s.scriptForm? q call = some q') :
    (s.withScripts scripts allowed).scriptForm? q call = some q' := by
  unfold scriptForm? at formed ⊢
  change (if s.averagesOther q call then _ else _) = _
  split at formed
  · rename_i averages
    rw [if_pos averages]
    obtain ⟨sum, sumCompiled, formed⟩ := Option.bind_eq_some_iff.1 formed
    obtain ⟨count, countCompiled, rfl⟩ := Option.map_eq_some_iff.1 formed
    refine Option.bind_eq_some_iff.2 ⟨sum, kept _ _ _ _ sumCompiled, ?_⟩
    exact Option.map_eq_some_iff.2 ⟨count, kept _ _ _ _ countCompiled, rfl⟩
  · rename_i single
    rw [if_neg single]
    obtain ⟨function, compiled, rfl⟩ := Option.map_eq_some_iff.1 formed
    exact Option.map_eq_some_iff.2 ⟨function, kept _ _ _ _ compiled, rfl⟩

/-- Aggregates are computed alike where scripts are kept. -/
theorem lowerCall?_mono (kept : s.KeepsScripts scripts allowed)
    (lowered : s.lowerCall? q call = some q') :
    (s.withScripts scripts allowed).lowerCall? q call = some q' := by
  rw [lowerCall?_eq] at lowered ⊢
  change (if s.isOverridden call.id then _ else (s.nativeForm? q call).or _) = _
  split at lowered
  · rename_i overridden
    rw [if_pos overridden, lowered]
  · rename_i asked
    rw [if_neg asked]
    exact or_eq_some_mono (scriptForm?_mono kept) lowered

/-- Grouping expressions become the same dimensions where scripts are kept. -/
theorem lowerGroup?_mono (kept : s.KeepsScripts scripts allowed)
    (lowered : s.lowerGroup? q group expanded = some q') :
    (s.withScripts scripts allowed).lowerGroup? q group expanded = some q' := by
  rw [lowerGroup?_eq] at lowered ⊢
  refine or_eq_some_mono ?_ lowered
  intro scripted
  obtain ⟨function, compiled, scripted⟩ := Option.bind_eq_some_iff.1 scripted
  exact Option.bind_eq_some_iff.2 ⟨function, kept _ _ _ _ compiled, scripted⟩

end Scope

namespace Rule

/-- The rule with another compiler, which is allowed or not. -/
def withScripts (rule : Rule) (scripts : ScriptCompiler) (allowed : Bool) : Rule :=
  { rule with scripts, settings := { rule.settings with scriptFallback := allowed } }

variable {rule : Rule} {scripts : ScriptCompiler} {allowed : Bool}

/-- The compiler of a rule is that of its scopes. -/
theorem scope_withScripts (source : Source) (set : GroupingSet) :
    (rule.withScripts scripts allowed).scope source set =
      (rule.scope source set).withScripts scripts allowed :=
  rfl

/-- Grouping sets have the same queries where scripts are kept. -/
theorem lowerSet?_mono {source : Source} {set : GroupingSet} {pushed : PushedSet}
    (kept : (rule.scope source set).KeepsScripts scripts allowed)
    (lowered : rule.lowerSet? source set = some pushed) :
    (rule.withScripts scripts allowed).lowerSet? source set = some pushed := by
  obtain ⟨middle, grouped, lowered⟩ := Option.bind_eq_some_iff.1 lowered
  obtain ⟨query, computed, rfl⟩ := Option.map_eq_some_iff.1 lowered
  rw [lowerSet?, scope_withScripts]
  refine Option.bind_eq_some_iff.2 ⟨middle, ?_, Option.map_eq_some_iff.2 ⟨query, ?_, rfl⟩⟩
  · exact Run.mono (fun _ _ _ _ taken => Scope.lowerGroup?_mono kept taken) grouped
  · exact Run.mono (fun _ _ _ _ taken => Scope.lowerCall?_mono kept taken) computed

/-- What is pushed is pushed alike where scripts are kept. -/
theorem push?_mono (kept : ∀ source set, (rule.scope source set).KeepsScripts scripts allowed)
    {plan : Plan} {p : PushedAggregate} (pushed : rule.push? plan = some p) :
    (rule.withScripts scripts allowed).push? plan = some p := by
  obtain ⟨input, groupBy, outputs, rfl⟩ := exists_aggregate_of_push? pushed
  obtain ⟨permitted, parts, source, known, complete, lowered⟩ := push?_eq_some_iff.1 pushed
  refine push?_eq_some_iff.2 ⟨permitted, parts, source, known, complete, lowered.imp ?_⟩
  intro set pushedSet
  exact lowerSet?_mono (kept source set)

end Rule

/-- Scripts that are not allowed are no better than none: the same aggregates are pushed, with the
same queries. -/
theorem pushAggregate?_disallowed (catalog : Catalog) (scripts : ScriptCompiler)
    (settings : Settings) (plan : Plan) :
    pushAggregate? catalog scripts { settings with scriptFallback := false } plan =
      pushAggregate? catalog .none { settings with scriptFallback := true } plan := by
  -- neither rule compiles anything, so each has all the scripts of the other
  have disallowed (source : Source) (set : GroupingSet) :
      ((Rule.ofCatalog catalog scripts { settings with scriptFallback := false }).scope source
        set).KeepsScripts .none true :=
    Scope.keepsScripts_of_none (Scope.compile?_of_disallowed rfl) .none true
  have missing (source : Source) (set : GroupingSet) :
      ((Rule.ofCatalog catalog .none { settings with scriptFallback := true }).scope source
        set).KeepsScripts scripts false :=
    Scope.keepsScripts_of_none (Scope.compile?_eq_none rfl) scripts false
  apply Option.ext
  intro p
  constructor
  · intro pushed
    exact Rule.push?_mono disallowed pushed
  · intro pushed
    exact Rule.push?_mono missing pushed

/-! ## Queries without scripts -/

/-- The aggregation is no script. -/
def Aggregation.isNative : Aggregation → Bool
  | script _ _ => false
  | native _ _ _ | cardinality _ _ | hyperUnique _ _ => true

/-- Nothing in the query is scripted. -/
structure Query.IsNative (q : Query) : Prop where
  dimensions : ∀ d ∈ q.dimensions, d.isNative = true
  aggregations : ∀ a ∈ q.aggregations, a.isNative = true

/-- A dimension is native if scripts occur under no condition. -/
theorem Dimension.isNative_of_fits {r : Relation} {d : Dimension} (fits : d.Fits r False) :
    d.isNative = true := by
  obtain ⟨source, outputName, extraction?⟩ := d
  cases extraction? with
  | none => rfl
  | some extraction =>
    cases extraction with
    | timeFormat | timeParse => rfl
    | script => exact fits.elim

/-- An aggregation is native if scripts occur under no condition. -/
theorem Aggregation.isNative_of_fits {r : Relation} {a : Aggregation} (fits : a.Fits r False) :
    a.isNative = true := by
  cases a with
  | native | cardinality | hyperUnique => rfl
  | script => exact fits.elim

/-- An aggregate that is pushed without scripts has queries without scripts. -/
theorem Rule.isNative_of_push? {catalog : Catalog} {settings : Settings} {plan : Plan}
    {p : PushedAggregate} (pushed : (ofCatalog catalog .none settings).push? plan = some p) :
    ∀ set ∈ p.sets, set.query.IsNative := by
  have never (source : Source) (set : GroupingSet) :
      ((ofCatalog catalog .none settings).scope source set).Scripted False := by
    intro q e kind function compiled
    rw [Scope.compile?_eq_none rfl] at compiled
    cases compiled
  obtain ⟨table, r, -, fits⟩ := fitsSchema_of_push? never pushed
  intro set given
  have fitting := (fits set given).2
  exact ⟨fun d held => Dimension.isNative_of_fits (fitting.dimensions d held),
    fun a held => Aggregation.isNative_of_fits (fitting.aggregations a held)⟩

/-- A compiler with more scripts never changes what was already pushed. In particular, what is
pushed without scripts has native queries, and is pushed with the same queries by every
compiler. -/
theorem pushAggregate?_of_includedIn {catalog : Catalog} {settings : Settings} {plan : Plan} :
    (∀ weak strong : ScriptCompiler, weak.IncludedIn strong → ∀ p,
      pushAggregate? catalog weak settings plan = some p →
        pushAggregate? catalog strong settings plan = some p) ∧
    ∀ p, pushAggregate? catalog .none settings plan = some p →
      (∀ set ∈ p.sets, set.query.IsNative) ∧
        ∀ scripts, pushAggregate? catalog scripts settings plan = some p := by
  have more (weak strong : ScriptCompiler) (included : weak.IncludedIn strong)
      (p : PushedAggregate) (pushed : pushAggregate? catalog weak settings plan = some p) :
      pushAggregate? catalog strong settings plan = some p := by
    have kept (source : Source) (set : GroupingSet) :
        ((Rule.ofCatalog catalog weak settings).scope source set).KeepsScripts strong
          settings.scriptFallback :=
      Scope.keepsScripts_of_includedIn included
    exact Rule.push?_mono kept pushed
  refine ⟨more, fun p pushed => ⟨Rule.isNative_of_push? pushed, fun scripts => ?_⟩⟩
  exact more .none scripts (ScriptCompiler.none_includedIn scripts) p pushed

namespace Sales

/-- A compiler that writes scripts for some kinds of expressions: a script takes the columns of its
expression and returns its value. -/
def compiler (compiles : ScriptScope → Bool) : ScriptCompiler := fun _ e kind _ =>
  if compiles kind then .ok { params := e.references.map Attribute.name, body := e.render }
  else .error (.scriptCompilation ("cannot script " ++ e.render))

/-- City of a sale in capitals. -/
def town : Expr := .aliased (.scalar .upper [.column scannedCity]) "town" ⟨51⟩

/-- The number of sales by the city in capitals. -/
def perTown : Plan :=
  .aggregate scan [town] [town, .aliased count.toExpr "sales" ⟨23⟩]

end Sales

/-- Sales by the city in capitals need a script for rows, and are pushed alike by a compiler that
also has scripts for groups. The rollup of sales needs no script, and is pushed alike by all. -/
theorem pushAggregate?_perTown :
    (Sales.compiler fun kind => kind = .row).IncludedIn (Sales.compiler fun _ => true) ∧
    (∃ p, pushAggregate? Sales.catalog (Sales.compiler fun kind => kind = .row) .allEnabled
        Sales.perTown = some p ∧
      pushAggregate? Sales.catalog (Sales.compiler fun _ => true) .allEnabled Sales.perTown =
        some p ∧
      ¬ ∀ set ∈ p.sets, set.query.IsNative) ∧
    ∃ p, pushAggregate? Sales.catalog .none .allEnabled Sales.rollup = some p ∧
      (∀ set ∈ p.sets, set.query.IsNative) ∧
      ∀ scripts, pushAggregate? Sales.catalog scripts .allEnabled Sales.rollup = some p := by
  have included :
      (Sales.compiler fun kind => kind = .row).IncludedIn (Sales.compiler fun _ => true) := by
    intro q e kind timezone function compiled
    cases kind with
    | row => exact compiled
    | aggregate => cases compiled
  have scripted : ((pushAggregate? Sales.catalog (Sales.compiler fun kind => kind = .row)
      .allEnabled Sales.perTown).map fun p => p.sets.map fun set =>
        set.query.dimensions.map Dimension.isNative) = some [[false]] := by
    decide +kernel
  obtain ⟨p, pushed, sets⟩ := Option.map_eq_some_iff.1 scripted
  refine ⟨included, ⟨p, pushed, pushAggregate?_of_includedIn.1 _ _ included p pushed, ?_⟩, ?_⟩
  · intro native
    obtain ⟨set, single, dimensions⟩ := List.map_eq_singleton_iff.1 sets
    obtain ⟨d, sole, isScript⟩ := List.map_eq_singleton_iff.1 dimensions
    have unscripted := (native set (single ▸ List.mem_cons_self)).dimensions d
      (sole ▸ List.mem_cons_self)
    rw [isScript] at unscripted
    cases unscripted
  · obtain ⟨p, pushed, -⟩ := Sales.exists_pushed
    exact ⟨p, pushed, pushAggregate?_of_includedIn.2 p pushed⟩

end Rollup
