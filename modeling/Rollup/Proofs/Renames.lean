import Mathlib.Data.List.Pairwise
import Rollup.Proofs.ColumnChains

/-!
# Store columns of renamed columns

A stack of projections may give a column any name, also that of another store column. Its source
therefore follows identities: each expression of a projection is recorded under its identity, with
the store column of what it passes on. The record grows while later expressions of the same
projection still read it. This does no harm, since a new name comes with a new identity, and a
column that is passed on as it is keeps its store column.
-/

namespace Rollup

namespace Expr

/-- Identity that an alias gives to an expression. -/
def aliasId? : Expr → Option ExprId
  | aliased _ _ id => some id
  | _ => none

/-- A column that is passed on appears under its own identity, or under that of an alias. -/
theorem eq_column_or_aliasId? {e : Expr} {passed : Attribute} {id : ExprId}
    (passes : e.stripAlias = .column passed) (named : e.outputId? = some id) :
    e = .column passed ∧ id = passed.id ∨ e.aliasId? = some id := by
  cases e with
  | column attr =>
    cases passes
    cases named
    exact Or.inl ⟨rfl, rfl⟩
  | aliased inner name own =>
    cases named
    exact Or.inr rfl
  | literal | cast | scalar | binary | aggregate => cases passes

/-- Where aliases have identities of their own, only one expression has that of an alias. -/
theorem eq_of_aliasId? {expressions : List Expr} {e f : Expr} {id : ExprId}
    (distinct : (expressions.filterMap aliasId?).Nodup) (listed : e ∈ expressions)
    (also : f ∈ expressions) (first : e.aliasId? = some id) (second : f.aliasId? = some id) :
    e = f := by
  by_contra different
  have apart := List.pairwise_filterMap.1 distinct
  have symmetric : Std.Symm fun e f : Expr => ∀ id, e.aliasId? = some id →
      ∀ id', f.aliasId? = some id' → id ≠ id' :=
    ⟨fun _ _ unlike id first id' second => (unlike id' second id first).symm⟩
  exact apart.forall listed also different id first id second rfl

end Expr

namespace Plan

/-- The definition of an identity leads down through the projections to a column of the scan. -/
inductive Traces : Plan → ExprId → Attribute → Prop
  | scan {table : String} {output : List Attribute} {id : ExprId} {attr : Attribute}
      (scanned : attr ∈ output) (own : attr.id = id) : Traces (.scan table output) id attr
  | project {input : Plan} {expressions : List Expr} {e : Expr} {id : ExprId}
      {passed attr : Attribute} (listed : e ∈ expressions) (named : e.outputId? = some id)
      (passes : e.stripAlias = .column passed) (below : Traces input passed.id attr) :
      Traces (.project input expressions) id attr

/-- Projections of columns of what is below them, any number of them, over a scan of a known
relation. The aliases of a projection have identities of their own. -/
inductive IsRenamingChain (catalog : Catalog) : Plan → Prop
  | scan {table : String} {output : List Attribute} {r : Relation}
      (known : catalog.relation? table = some r) : IsRenamingChain catalog (.scan table output)
  | project {input : Plan} {expressions : List Expr} (below : IsRenamingChain catalog input)
      (columns : ∀ e ∈ expressions, ∃ passed ∈ input.output, e.stripAlias = .column passed)
      (distinct : (expressions.filterMap Expr.aliasId?).Nodup)
      (fresh : ∀ id ∈ expressions.filterMap Expr.aliasId?, id ∉ input.output.map Attribute.id) :
      IsRenamingChain catalog (.project input expressions)

/-- The name is that of a column of the scan to which the identity leads. -/
def NamesOrigin (plan : Plan) (id : ExprId) (name : String) : Prop :=
  ∃ attr, plan.Traces id attr ∧ name = attr.name

variable {catalog : Catalog} {plan : Plan}

/-- A chain that renames columns is a chain of columns. -/
theorem IsRenamingChain.isColumnChain (chained : plan.IsRenamingChain catalog) :
    plan.IsColumnChain catalog := by
  induction chained with
  | scan known => exact .scan known
  | project below columns distinct fresh ih =>
    apply IsColumnChain.project ih
    intro e listed
    obtain ⟨passed, -, passes⟩ := columns e listed
    exact ⟨passed, passes⟩

/-- An identity leads to columns of a single identity. Equal identities in one projection belong to
the same alias, or to columns that are passed on under them. -/
theorem IsRenamingChain.id_unique (chained : plan.IsRenamingChain catalog) {id : ExprId}
    {attr other : Attribute} (leads : plan.Traces id attr) (also : plan.Traces id other) :
    other.id = attr.id := by
  induction chained generalizing id with
  | scan known =>
    obtain ⟨-, own⟩ := leads
    obtain ⟨-, own'⟩ := also
    exact own'.trans own.symm
  | @project input expressions below columns distinct fresh ih =>
    -- an alias does not take the identity of a column below
    have apart {e f : Expr} {passed : Attribute} (listed : e ∈ expressions)
        (passes : e.stripAlias = .column passed) (also : f ∈ expressions) :
        f.aliasId? ≠ some passed.id := by
      intro aliased
      obtain ⟨found, held, same⟩ := columns e listed
      rw [passes] at same
      cases same
      apply fresh passed.id (List.mem_filterMap.2 ⟨f, also, aliased⟩)
      exact List.mem_map.2 ⟨passed, held, rfl⟩
    cases leads with
    | @project _ _ e _ passed _ listed named passes deeper =>
    cases also with
    | @project _ _ f _ passed' _ listed' named' passes' deeper' =>
    have first := Expr.eq_column_or_aliasId? passes named
    have second := Expr.eq_column_or_aliasId? passes' named'
    rcases first with ⟨-, own⟩ | aliased <;> rcases second with ⟨-, own'⟩ | aliased'
    · have same : passed'.id = passed.id := own'.symm.trans own
      rw [same] at deeper'
      exact ih deeper deeper'
    · rw [own] at aliased'
      exact absurd aliased' (apart listed passes listed')
    · rw [own'] at aliased
      exact absurd aliased (apart listed' passes' listed)
    · have same : e = f := Expr.eq_of_aliasId? distinct listed listed' aliased aliased'
      rw [← same, passes] at passes'
      cases passes'
      exact ih deeper deeper'

end Plan

namespace Source

variable {s : Source} {plan input : Plan} {expressions : List Expr}

/-- Every column that a plan puts out is read under the name of a column of its scan to which it
leads. -/
def Knows (s : Source) (plan : Plan) : Prop :=
  ∀ attr ∈ plan.output, plan.NamesOrigin attr.id (s.storeName attr)

/-- An identity of a plan is recorded, with the name of a column of its scan to which it leads. -/
def Records (s : Source) (plan : Plan) (id : ExprId) : Prop :=
  ∃ name, s.storeColumns.get? id = some name ∧ plan.NamesOrigin id name

section Project

variable {e : Expr} {passed : Attribute} {id other : ExprId}
  (passes : e.stripAlias = .column passed) (named : e.outputId? = some id)

include passes named

/-- A column that is passed on takes its store column with it, and nothing else is touched. -/
theorem get?_project (other : ExprId) : (s.project e).storeColumns.get? other =
    if id = other then some (s.storeName passed) else s.storeColumns.get? other := by
  rw [project, passes, named]
  exact Table.get?_insert _ _ _ _

variable (held : passed ∈ input.output) (knows : s.Knows input)

include held knows

/-- What is known of the columns below a projection stays true while its expressions are recorded:
an alias is recorded under a new identity, and a column under its own once more. -/
theorem Knows.project (fresh : e.aliasId? = some id → id ∉ input.output.map Attribute.id) :
    (s.project e).Knows input := by
  intro attr given
  unfold storeName
  rw [get?_project passes named]
  by_cases same : id = attr.id
  · rw [if_pos same, Option.getD_some]
    rcases Expr.eq_column_or_aliasId? passes named with ⟨-, own⟩ | aliased
    · have again : attr.id = passed.id := same.symm.trans own
      rw [again]
      exact knows passed held
    · have taken : id ∈ input.output.map Attribute.id := List.mem_map.2 ⟨attr, given, same.symm⟩
      exact absurd taken (fresh aliased)
  · rw [if_neg same]
    exact knows attr given

/-- What is recorded for an expression of a projection is a column to which it leads. -/
theorem Knows.records_project (listed : e ∈ expressions) :
    (s.project e).Records (.project input expressions) id := by
  have recorded := get?_project (s := s) passes named id
  rw [if_pos rfl] at recorded
  obtain ⟨attr, leads, name⟩ := knows passed held
  exact ⟨s.storeName passed, recorded, attr, .project listed named passes leads, name⟩

/-- What is recorded for the projection stays so when another expression is recorded. -/
theorem Records.project (listed : e ∈ expressions)
    (records : s.Records (.project input expressions) other) :
    (s.project e).Records (.project input expressions) other := by
  by_cases same : id = other
  · rw [← same]
    exact knows.records_project passes named held listed
  · obtain ⟨name, recorded, origin⟩ := records
    have kept := get?_project (s := s) passes named other
    rw [if_neg same, recorded] at kept
    exact ⟨name, kept, origin⟩

end Project

/-- Once the expressions of a projection are recorded, each identity that one of them has is
recorded with a column to which it leads. -/
theorem Knows.records_foldl {rest : List Expr} (included : rest ⊆ expressions)
    (columns : ∀ e ∈ expressions, ∃ passed ∈ input.output, e.stripAlias = .column passed)
    (fresh : ∀ id ∈ expressions.filterMap Expr.aliasId?, id ∉ input.output.map Attribute.id)
    (knows : s.Knows input) {id : ExprId}
    (recorded : s.Records (.project input expressions) id ∨
      ∃ e ∈ rest, e.outputId? = some id) :
    (rest.foldl Source.project s).Records (.project input expressions) id := by
  induction rest generalizing s with
  | nil =>
    rcases recorded with before | ⟨e, given, -⟩
    · exact before
    · cases given
  | cons e rest ih =>
    obtain ⟨listed, others⟩ := List.cons_subset.1 included
    obtain ⟨passed, held, passes⟩ := columns e listed
    obtain ⟨attr, adds⟩ := Expr.PassesColumn.exists_attribute? ⟨passed, passes⟩
    have named := Expr.outputId?_of_attribute? adds
    have kept : (s.project e).Knows input := by
      apply knows.project passes named held
      intro aliased
      exact fresh attr.id (List.mem_filterMap.2 ⟨e, listed, aliased⟩)
    apply ih others kept
    rcases recorded with before | ⟨f, given, namedAlso⟩
    · exact Or.inl (before.project passes named held knows listed)
    · rcases List.mem_cons.1 given with rfl | later
      · have same : attr.id = id := Option.some.inj (named.symm.trans namedAlso)
        rw [← same]
        exact Or.inl (knows.records_project passes named held listed)
      · exact Or.inr ⟨f, later, namedAlso⟩

/-- The source of a chain that renames columns knows what each column reads. -/
theorem knows_of_ofPlan? {catalog : Catalog} (chained : plan.IsRenamingChain catalog)
    (known : ofPlan? catalog plan = some s) : s.Knows plan := by
  induction chained generalizing s with
  | scan =>
    obtain ⟨r, -, rfl⟩ := Option.map_eq_some_iff.1 known
    intro attr scanned
    exact ⟨attr, .scan scanned rfl, rfl⟩
  | @project input expressions below columns distinct fresh ih =>
    obtain ⟨start, found, rfl⟩ := Option.map_eq_some_iff.1 known
    have knows : start.Knows input := ih found
    intro attr given
    obtain ⟨e, listed, adds⟩ := List.mem_filterMap.1 given
    have named := Expr.outputId?_of_attribute? adds
    obtain ⟨name, recorded, origin⟩ :=
      knows.records_foldl (List.Subset.refl _) columns fresh (Or.inr ⟨e, listed, named⟩)
    rw [storeName, recorded]
    exact origin

end Source

/-- Renames are traced to the right store column through any stack of projections. A chain that
renames columns has a complete source, and each column that it puts out reads the scan column to
which its definition leads, whatever the aliases on the way are called. -/
theorem storeName_of_isRenamingChain {catalog : Catalog} {plan : Plan}
    (chained : plan.IsRenamingChain catalog) :
    ∃ s, Source.ofPlan? catalog plan = some s ∧ s.isComplete = true ∧
      ∀ attr ∈ plan.output, ∃ origin, plan.Traces attr.id origin ∧
        s.storeName attr = origin.name ∧
        ∀ other, plan.Traces attr.id other → other.id = origin.id := by
  obtain ⟨s, known, complete⟩ := Catalog.absorbs_iff_isColumnChain.2 chained.isColumnChain
  refine ⟨s, known, complete, ?_⟩
  intro attr given
  obtain ⟨origin, leads, name⟩ := Source.knows_of_ofPlan? chained known attr given
  exact ⟨origin, leads, name, fun other also => chained.id_unique leads also⟩

namespace Sales

/-- City and country of a sale under each other's names. -/
def swapped : Plan :=
  .project scan [.aliased (.column scannedCountry) "city" ⟨71⟩,
    .aliased (.column scannedCity) "country" ⟨72⟩, .column price]

/-- The swapped columns, with the one that is called country now called city, and under its old
name as well. -/
def swappedAgain : Plan :=
  .project swapped [.column { scannedCountry with id := ⟨72⟩ },
    .aliased (.aliased (.column { scannedCountry with id := ⟨72⟩ }) "price" ⟨73⟩) "city" ⟨74⟩,
    .aliased (.column { scannedCity with id := ⟨71⟩ }) "country" ⟨75⟩]

/-- Swapping the names of city and country twice is a renaming. -/
theorem isRenamingChain_swappedAgain : swappedAgain.IsRenamingChain catalog := by
  have once : swapped.IsRenamingChain catalog := by
    apply Plan.IsRenamingChain.project (.scan (r := relation) rfl)
    · rw [List.forall_mem_cons, List.forall_mem_cons, List.forall_mem_singleton]
      exact ⟨⟨scannedCountry, by decide, rfl⟩, ⟨scannedCity, by decide, rfl⟩,
        ⟨price, by decide, rfl⟩⟩
    · decide
    · decide
  apply Plan.IsRenamingChain.project once
  · rw [List.forall_mem_cons, List.forall_mem_cons, List.forall_mem_singleton]
    exact ⟨⟨_, by decide, rfl⟩, ⟨_, by decide, rfl⟩, ⟨_, by decide, rfl⟩⟩
  · decide
  · decide

end Sales

/-- Through both swaps, the columns read what they read in the scan: the city twice, under its
first new name and under its second, and the country. -/
theorem storeName_swappedAgain :
    Sales.swappedAgain.IsRenamingChain Sales.catalog ∧
    ∃ s, Source.ofPlan? Sales.catalog Sales.swappedAgain = some s ∧ s.isComplete = true ∧
      (Sales.swappedAgain.output.map fun attr => (attr.name, s.storeName attr)) =
        [("country", "city"), ("city", "city"), ("country", "country")] ∧
      ∀ attr ∈ Sales.swappedAgain.output, ∃ origin,
        Sales.swappedAgain.Traces attr.id origin ∧ s.storeName attr = origin.name ∧
        ∀ other, Sales.swappedAgain.Traces attr.id other → other.id = origin.id := by
  have chained := Sales.isRenamingChain_swappedAgain
  obtain ⟨s, known, complete, named⟩ := storeName_of_isRenamingChain chained
  refine ⟨chained, s, known, complete, ?_, named⟩
  cases known
  rfl

end Rollup
