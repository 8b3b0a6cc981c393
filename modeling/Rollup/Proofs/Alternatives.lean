import Rollup.Proofs.NativeGate
import Rollup.Proofs.Reads

/-!
# Native forms exclude each other

Native forms are tried one after the other, and scripts last. The order in which the native forms
are tried does not matter: at most one of them has an answer. For grouping expressions, the forms
differ in the function that is called under aliases and casts. One of them looks at the grouping
expression itself and the others at what it stands for, but a called function stays in its place
when columns are replaced. For aggregates, the forms differ in the function and in whether distinct
values are asked for. An average that is given to the scripts has no native form, so that it can be
tested for at any point before the scripts.
-/

namespace Rollup

/-- At most one of the answers is given. -/
def Exclusive {α : Type} (answers : List (Option α)) : Prop :=
  answers.Pairwise fun a b => a = none ∨ b = none

/-- One of two answers is missing if they cannot both be given. -/
theorem none_or_none {α : Type} {a b : Option α}
    (conflict : a.isSome = true → b.isSome = true → False) : a = none ∨ b = none := by
  cases a with
  | none => exact Or.inl rfl
  | some x =>
    cases b with
    | none => exact Or.inr rfl
    | some y => exact (conflict rfl rfl).elim

/-- Three answers exclude each other if no two of them can both be given. -/
theorem Exclusive.of_three {α : Type} {a b c : Option α}
    (early : a.isSome = true → b.isSome = true → False)
    (outer : a.isSome = true → c.isSome = true → False)
    (late : b.isSome = true → c.isSome = true → False) : Exclusive [a, b, c] := by
  have first : ∀ other ∈ [b, c], a = none ∨ other = none := by
    rw [List.forall_mem_cons, List.forall_mem_singleton]
    exact ⟨none_or_none early, none_or_none outer⟩
  have second : ∀ other ∈ [c], b = none ∨ other = none := by
    rw [List.forall_mem_singleton]
    exact none_or_none late
  exact .cons first (.cons second (List.pairwise_singleton _ c))

/-- Answers that exclude each other do so in every order. -/
theorem Exclusive.perm {α : Type} {answers order : List (Option α)} (exclusive : Exclusive answers)
    (same : order.Perm answers) : Exclusive order :=
  List.Pairwise.perm exclusive same.symm Or.symm

/-- The first answer of a list is that of its head, or else that of the rest. -/
theorem findSome?_cons_or {α β : Type} (answer : α → Option β) (a : α) (rest : List α) :
    (a :: rest).findSome? answer = (answer a).or (rest.findSome? answer) := by
  rw [List.findSome?_cons]
  cases answer a <;> rfl

/-- The first answer does not depend on the order of answers that exclude each other. -/
theorem Exclusive.findSome?_perm {α : Type} {answers order : List (Option α)}
    (exclusive : Exclusive answers) (same : order.Perm answers) :
    order.findSome? id = answers.findSome? id := by
  induction same with
  | nil => rfl
  | cons a _ ih =>
    rw [findSome?_cons_or, findSome?_cons_or, ih (List.pairwise_cons.1 exclusive).2]
  | swap a b rest =>
    have apart := (List.pairwise_cons.1 exclusive).1 b List.mem_cons_self
    simp only [findSome?_cons_or, id_eq]
    rcases apart with rfl | rfl
    · rw [Option.none_or, Option.none_or]
    · rw [Option.none_or, Option.none_or]
  | trans _ second first_ih second_ih =>
    rw [first_ih (exclusive.perm second), second_ih exclusive]

/-- Ways to answer a question may be tried in any order, if their answers exclude each other. -/
theorem findSome?_perm {α β : Type} {forms order : List α} {answer : α → Option β}
    (exclusive : Exclusive (forms.map answer)) (same : order.Perm forms) :
    order.findSome? answer = forms.findSome? answer := by
  have answers := exclusive.findSome?_perm (same.map answer)
  rw [List.findSome?_map, List.findSome?_map] at answers
  exact answers

namespace Expr

/-- Casts stay in place when columns are replaced, though the types of their operands may differ. -/
theorem CastOf.exists_mapColumns {base e : Expr} {casts : List (DataType × DataType)}
    (cast : CastOf base casts e) (f : Attribute → Option Expr) :
    ∃ casts', CastOf (base.mapColumns f) casts' (e.mapColumns f) := by
  induction cast with
  | bare => exact ⟨[], .bare⟩
  | cast below ih =>
    obtain ⟨casts', below'⟩ := ih
    rw [Expr.mapColumns]
    exact ⟨_, .cast below'⟩

/-- Aliases stay in place when columns are replaced. -/
theorem AliasOf.mapColumns {base e : Expr} (named : AliasOf base e)
    (f : Attribute → Option Expr) : AliasOf (base.mapColumns f) (e.mapColumns f) := by
  induction named with
  | bare => exact .bare
  | aliased below ih =>
    rw [Expr.mapColumns]
    exact .aliased ih

/-- Function that is called under aliases, and under casts below these. -/
def calledFunction? (e : Expr) : Option ScalarFunction :=
  match e.stripAlias.stripCasts with
  | .scalar func _ => some func
  | _ => none

variable {e : Expr} {func : ScalarFunction} {f : Attribute → Option Expr}

/-- A function is called exactly if its call lies under aliases and casts. -/
theorem calledFunction?_eq_some_iff :
    e.calledFunction? = some func ↔ ∃ args, e.stripAlias.stripCasts = .scalar func args := by
  unfold calledFunction?
  cases e.stripAlias.stripCasts <;> simp

/-- A called function is called whatever the columns are replaced by. -/
theorem calledFunction?_mapColumns (calls : e.calledFunction? = some func) :
    (e.mapColumns f).calledFunction? = some func := by
  obtain ⟨args, call⟩ := calledFunction?_eq_some_iff.1 calls
  have named := (aliasOf_stripAlias e).mapColumns f
  obtain ⟨casts, cast⟩ := exists_castOf e.stripAlias
  obtain ⟨casts', cast'⟩ := cast.exists_mapColumns f
  rw [call, Expr.mapColumns] at cast'
  exact calledFunction?_eq_some_iff.2 ⟨_, Scope.stripped_eq named cast' rfl rfl⟩

/-- Renaming columns changes nothing about the called function. -/
theorem Renames.calledFunction?_mapColumns (renames : Renames f) (e : Expr) :
    (e.mapColumns f).calledFunction? = e.calledFunction? := by
  rw [calledFunction?, renames.stripAlias_mapColumns, renames.stripCasts_mapColumns,
    calledFunction?]
  cases e.stripAlias.stripCasts with
  | column attr =>
    obtain ⟨renamed, same⟩ := renames.exists_column attr
    rw [same]
  | literal | aliased | cast | scalar | binary | aggregate => rw [mapColumns]

end Expr

namespace Scope

/-- A way in which a grouping expression becomes a dimension, given what it stands for. -/
abbrev GroupForm := Scope → Query → Expr → Expr → Option Query

/-- A way in which an aggregate is computed. -/
abbrev CallForm := Scope → Query → AggregateCall → Option Query

/-- Native forms of grouping expressions, in the order in which they are tried. -/
def groupForms : List GroupForm :=
  [fun _ => directDimension?, timeFormatDimension?, fun s q group _ => s.timePartDimension? q group]

/-- Native forms of aggregates, in the order in which they are tried. -/
def callForms : List CallForm :=
  [rowCountCall?, distinctCall?, metricCall?]

/-- An aggregate in the first of some native forms that it has. Only complete aggregates have
any. -/
def firstForm? (forms : List CallForm) (s : Scope) (q : Query) (call : AggregateCall) :
    Option Query :=
  if isNativeMode call then forms.findSome? fun form => form s q call else none

variable {s : Scope} {q : Query} {group expanded : Expr} {call : AggregateCall}

/-- A dimension as it is calls no function. -/
theorem calledFunction?_of_direct (answered : (directDimension? q group expanded).isSome = true) :
    expanded.calledFunction? = none := by
  obtain ⟨q', answered⟩ := Option.isSome_iff_exists.1 answered
  obtain ⟨attr, bare, -⟩ := Option.bind_eq_some_iff.1 answered
  have column := Expr.column?_eq_some_iff.1 bare
  rw [Expr.calledFunction?, column]
  rfl

/-- A formatted point in time is a call of the function that formats it. -/
theorem calledFunction?_of_format
    (answered : (s.timeFormatDimension? q group expanded).isSome = true) :
    expanded.calledFunction? = some .dateFormat := by
  obtain ⟨q', answered⟩ := Option.isSome_iff_exists.1 answered
  obtain ⟨time, found, -⟩ := Option.map_eq_some_iff.1 answered
  obtain ⟨args, call, -⟩ := TimeExtraction.exists_of?_of_ofFormat? found
  exact Expr.calledFunction?_eq_some_iff.2 ⟨args, call⟩

/-- A part of a point in time is a call of a function that takes it, also in what the grouping
expression stands for. -/
theorem calledFunction?_of_part (answered : (s.timePartDimension? q group).isSome = true) :
    ∃ func, (s.resolve group).calledFunction? = some func ∧
      (TimeExtraction.partFormat? func).isSome = true := by
  obtain ⟨q', answered⟩ := Option.isSome_iff_exists.1 answered
  obtain ⟨time, found, -⟩ := Option.map_eq_some_iff.1 answered
  obtain ⟨func, point, format, call, takes, -⟩ := TimeExtraction.exists_of?_of_ofPart? found
  have renames := s.renames_storeColumn?
  have calls : group.calledFunction? = some func := by
    rw [← renames.calledFunction?_mapColumns]
    exact Expr.calledFunction?_eq_some_iff.2 ⟨_, call⟩
  have inRow : (s.inRowOf group).calledFunction? = some func := by
    unfold inRowOf
    split
    · exact Expr.calledFunction?_mapColumns calls
    · exact calls
  refine ⟨func, ?_, Option.isSome_iff_exists.2 ⟨format, takes⟩⟩
  rw [resolve, withStoreNames, renames.calledFunction?_mapColumns, inRow]

/-- A grouping expression has at most one native form. -/
theorem exclusive_groupForms (s : Scope) (q : Query) (group : Expr) :
    Exclusive (groupForms.map fun form => form s q group (s.resolve group)) := by
  apply Exclusive.of_three
  · intro direct format
    have calls := calledFunction?_of_format format
    rw [calledFunction?_of_direct direct] at calls
    cases calls
  · intro direct part
    obtain ⟨func, calls, -⟩ := calledFunction?_of_part part
    rw [calledFunction?_of_direct direct] at calls
    cases calls
  · intro format part
    obtain ⟨func, calls, takes⟩ := calledFunction?_of_part part
    rw [calledFunction?_of_format format] at calls
    cases calls
    -- the function that formats a point in time takes no part of it
    cases takes

/-- An aggregate has at most one native form. -/
theorem exclusive_callForms (s : Scope) (q : Query) (call : AggregateCall) :
    Exclusive (callForms.map fun form => form s q call) := by
  apply Exclusive.of_three
  · intro rows distinct
    obtain ⟨counts, plain, -⟩ := rowCountCall?_isSome_iff.1 rows
    obtain ⟨approximates | ⟨-, distinct⟩, -⟩ := distinctCall?_isSome_iff.1 distinct
    · rw [counts] at approximates
      cases approximates
    · rw [plain] at distinct
      cases distinct
  · intro rows metric
    obtain ⟨counts, -⟩ := rowCountCall?_isSome_iff.1 rows
    obtain ⟨-, casts, column, -, -, form⟩ := metricCall?_isSome_iff.1 metric
    simp [counts] at form
  · intro distinct metric
    obtain ⟨counts, -⟩ := distinctCall?_isSome_iff.1 distinct
    obtain ⟨plain, casts, column, -, -, form⟩ := metricCall?_isSome_iff.1 metric
    rcases counts with approximates | ⟨-, distinct⟩
    · simp [approximates] at form
    · rw [plain] at distinct
      cases distinct

/-- An average that is given to the scripts at once has no native form. -/
theorem callForms_eq_none (needed : s.needsScriptAverage q call = true) :
    ∀ form ∈ callForms, form s q call = none := by
  rw [needsScriptAverage_eq, Bool.and_eq_true] at needed
  rw [callForms, List.forall_mem_cons, List.forall_mem_cons, List.forall_mem_singleton]
  exact forms_eq_none_of_averagesOther needed.1

/-- The native forms of a grouping expression in the order in which they are tried. -/
theorem findSome?_groupForms (s : Scope) (q : Query) (group expanded : Expr) :
    groupForms.findSome? (fun form => form s q group expanded) =
      s.nativeGroup? q group expanded := by
  rw [groupForms, nativeGroup?, findSome?_cons_or, findSome?_cons_or, List.findSome?_singleton]

/-- The native forms of an aggregate in the order in which they are tried. -/
theorem firstForm?_callForms (s : Scope) (q : Query) (call : AggregateCall) :
    firstForm? callForms s q call = s.nativeForm? q call := by
  rw [firstForm?, nativeForm?, nativeCall?]
  by_cases complete : isNativeMode call = true
  · rw [if_pos complete, if_pos complete, callForms, findSome?_cons_or, findSome?_cons_or,
      List.findSome?_singleton]
  · have noRowCount : s.rowCountCall? q call = none := by
      rw [rowCountCall?, Bool.eq_false_iff.2 complete]
      simp
    rw [if_neg complete, if_neg complete, noRowCount, Option.none_or]

/-- The forms of a list are tried before those of the next. -/
theorem firstForm?_append (before after : List CallForm) :
    firstForm? (before ++ after) s q call =
      (firstForm? before s q call).or (firstForm? after s q call) := by
  unfold firstForm?
  split
  · exact List.findSome?_append
  · rfl

/-- Forms without an answer have no first one. -/
theorem firstForm?_eq_none {forms : List CallForm}
    (nothing : ∀ form ∈ forms, form s q call = none) : firstForm? forms s q call = none := by
  unfold firstForm?
  split
  · exact List.findSome?_eq_none_iff.2 nothing
  · rfl

/-- The native forms of an aggregate may be tried in any order. -/
theorem firstForm?_perm {order : List CallForm}
    (same : order.Perm callForms) : firstForm? order s q call = s.nativeForm? q call := by
  rw [← firstForm?_callForms, firstForm?, firstForm?,
    findSome?_perm (exclusive_callForms s q call) same]

/-- An aggregate that the host does not fill in is computed alike in whatever order the native forms
are tried, and wherever among them an average is tested for scripts. -/
theorem lowerCall?_reordered {before after : List CallForm}
    (same : (before ++ after).Perm callForms) (asked : s.isOverridden call.id = false) :
    s.lowerCall? q call = (firstForm? before s q call).or
      (if s.needsScriptAverage q call then s.scriptAverage? q call
        else (firstForm? after s q call).or (s.scriptCall? q call)) := by
  rw [lowerCall?, asked, if_neg Bool.false_ne_true]
  by_cases needed : s.needsScriptAverage q call = true
  · have nothing : firstForm? before s q call = none := by
      apply firstForm?_eq_none
      intro form given
      have listed : form ∈ callForms := same.subset (List.mem_append_left after given)
      exact callForms_eq_none needed form listed
    rw [if_pos needed, if_pos needed, nothing, Option.none_or]
  · rw [if_neg needed, if_neg needed]
    calc
      (s.rowCountCall? q call).or ((s.nativeCall? q call).or (s.scriptCall? q call))
        = (s.nativeForm? q call).or (s.scriptCall? q call) := by rw [nativeForm?, Option.or_assoc]
      _ = (firstForm? (before ++ after) s q call).or (s.scriptCall? q call) := by
        rw [firstForm?_perm same]
      _ = _ := by rw [firstForm?_append, Option.or_assoc]

/-- The native forms exclude each other, so their order is immaterial. A grouping expression and an
aggregate have at most one native form, and an average that is given to the scripts has none. The
lowering is therefore the same in whatever order the native forms are tried before the scripts, and
wherever among them an average is tested for scripts. -/
theorem lowering_reordered (s : Scope) (q : Query) :
    (∀ group, Exclusive (groupForms.map fun form => form s q group (s.resolve group))) ∧
    (∀ call, Exclusive (callForms.map fun form => form s q call)) ∧
    (∀ call, s.needsScriptAverage q call = true → ∀ form ∈ callForms, form s q call = none) ∧
    (∀ group, ∀ order : List GroupForm, order.Perm groupForms →
      s.lowerGroup? q group (s.inRowOf group) =
        (order.findSome? fun form => form s q group (s.resolve group)).or
          (s.scriptDimension? q group (s.resolve group))) ∧
    ∀ call, ∀ before after : List CallForm, (before ++ after).Perm callForms →
      s.isOverridden call.id = false →
      s.lowerCall? q call = (firstForm? before s q call).or
        (if s.needsScriptAverage q call then s.scriptAverage? q call
          else (firstForm? after s q call).or (s.scriptCall? q call)) := by
  refine ⟨exclusive_groupForms s q, exclusive_callForms s q, ?_, ?_, ?_⟩
  · intro call needed
    exact callForms_eq_none needed
  · intro group order same
    rw [findSome?_perm (exclusive_groupForms s q group) same, findSome?_groupForms, lowerGroup?_eq]
    rfl
  · intro call before after same asked
    exact lowerCall?_reordered same asked

end Scope

namespace Sales

/-- The average of the cities, which are no numbers. -/
def meanCity : AggregateCall :=
  { id := ⟨64⟩, func := .avg, dataType := .float64, args := [.column scannedCity] }

end Sales

/-- Where the time is nulled out, the year of a sale is found in its native form also if the forms
are tried from the last to the first. The average of the cities is given to the scripts and has no
native form, and the number of sales is computed alike if averages are tested for scripts between
the native forms. -/
theorem lowering_reordered_sales :
    (let s := Sales.timelineScope Sales.timeless
    (s.timePartDimension? Sales.blank Sales.year).isSome = true ∧
    s.lowerGroup? Sales.blank Sales.year (s.inRowOf Sales.year) =
      (Scope.groupForms.reverse.findSome? fun form =>
        form s Sales.blank Sales.year (s.resolve Sales.year)).or
          (s.scriptDimension? Sales.blank Sales.year (s.resolve Sales.year))) ∧
    (Sales.unexpanded.needsScriptAverage Sales.blank Sales.meanCity = true ∧
    ∀ form ∈ Scope.callForms, form Sales.unexpanded Sales.blank Sales.meanCity = none) ∧
    Sales.unexpanded.isOverridden Sales.count.id = false ∧
    Sales.unexpanded.lowerCall? Sales.blank Sales.count =
      (Scope.firstForm? [Scope.metricCall?, Scope.rowCountCall?] Sales.unexpanded Sales.blank
        Sales.count).or
      (if Sales.unexpanded.needsScriptAverage Sales.blank Sales.count then
        Sales.unexpanded.scriptAverage? Sales.blank Sales.count
      else (Scope.firstForm? [Scope.distinctCall?] Sales.unexpanded Sales.blank Sales.count).or
        (Sales.unexpanded.scriptCall? Sales.blank Sales.count)) := by
  have inRow := Scope.lowering_reordered (Sales.timelineScope Sales.timeless) Sales.blank
  have alone := Scope.lowering_reordered Sales.unexpanded Sales.blank
  have needed : Sales.unexpanded.needsScriptAverage Sales.blank Sales.meanCity = true := by
    decide +kernel
  have same : ([Scope.metricCall?] ++ [Scope.rowCountCall?, Scope.distinctCall?]).Perm
      ([Scope.rowCountCall?, Scope.distinctCall?] ++ [Scope.metricCall?]) :=
    List.perm_append_comm
  refine ⟨⟨by decide +kernel, ?_⟩, ⟨needed, ?_⟩, rfl, ?_⟩
  · exact inRow.2.2.2.1 Sales.year _ (List.reverse_perm _)
  · exact alone.2.2.1 Sales.meanCity needed
  · exact alone.2.2.2.2 Sales.count _ _ same rfl

end Rollup
