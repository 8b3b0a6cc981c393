import Mathlib.Data.List.Forall2
import Rollup.Proofs.Columns
import Rollup.Proofs.Distinct

/-!
# Places in an expression

A place says which direct subexpression to enter, and so on from there. The lexicographic order of
places is the order of reading: an expression comes before its parts, and these come from left to
right. Columns occur anywhere in an expression; of the aggregates only those count that lie in no
other aggregate. The occurrences of either kind are listed in the order of their places, each once,
and the collectors keep the first occurrence of each identity.
-/

namespace Rollup

/-- The first place is read before the second. -/
def Precedes (p q : List Nat) : Prop := List.Lex (· < ·) p q

/-- Of two places, one at most is read before the other. -/
theorem Precedes.asymm {p q : List Nat} (before : Precedes p q) : ¬ Precedes q p :=
  List.lex_asymm Nat.lt_asymm before

namespace Expr

/-- Subexpression at a place. -/
def at? : Expr → List Nat → Option Expr
  | e, [] => some e
  | e, i :: p => e.children[i]?.bind fun c => c.at? p

/-- A column occurs at a place. -/
def ColumnAt (e : Expr) (p : List Nat) (attr : Attribute) : Prop :=
  e.at? p = some (.column attr)

/-- An aggregate occurs at a place, outside the arguments of any other aggregate. -/
def CallAt (e : Expr) (p : List Nat) (call : AggregateCall) : Prop :=
  e.at? p = some call.toExpr ∧
    ∀ q, q <+: p → q ≠ p → ∀ outer : AggregateCall, e.at? q ≠ some outer.toExpr

/-- The aggregate, if the expression is one. -/
def call? : Expr → Option AggregateCall
  | aggregate head args => some { head with args }
  | _ => none

/-- An expression is a given aggregate exactly if it has the form of that aggregate. -/
theorem call?_eq_some_iff {e : Expr} {call : AggregateCall} :
    e.call? = some call ↔ e = call.toExpr := by
  constructor
  · intro found
    cases e with
    | aggregate head args =>
      cases found
      rfl
    | column | literal | aliased | cast | scalar | binary => cases found
  · rintro rfl
    rfl

/-! ## Occurrences in parts -/

section Parts

variable {e : Expr} {i : Nat} {p : List Nat}

/-- What is at a place inside an expression is in one of its direct subexpressions. -/
theorem at?_cons_eq_some_iff {d : Expr} :
    e.at? (i :: p) = some d ↔ ∃ c, e.children[i]? = some c ∧ c.at? p = some d := by
  rw [at?, Option.bind_eq_some_iff]

/-- A column at the outermost place is the expression itself. -/
theorem columnAt_nil_iff {attr : Attribute} : e.ColumnAt [] attr ↔ e.column? = some attr := by
  rw [column?_eq_some_iff, ColumnAt, at?, Option.some.injEq]

/-- A column inside an expression occurs in a direct subexpression. -/
theorem columnAt_cons_iff {attr : Attribute} :
    e.ColumnAt (i :: p) attr ↔
      e.column? = none ∧ ∃ c, e.children[i]? = some c ∧ c.ColumnAt p attr := by
  rw [ColumnAt, at?_cons_eq_some_iff]
  constructor
  · rintro ⟨c, child, inside⟩
    refine ⟨?_, c, child, inside⟩
    -- a column has no part in which another could occur
    cases e with
    | column => cases child
    | literal | aliased | cast | scalar | binary | aggregate => rfl
  · rintro ⟨-, inside⟩
    exact inside

/-- An aggregate at the outermost place is the expression itself. -/
theorem callAt_nil_iff {call : AggregateCall} : e.CallAt [] call ↔ e.call? = some call := by
  rw [call?_eq_some_iff, CallAt, at?, Option.some.injEq, and_iff_left]
  intro q above other
  exact absurd (List.prefix_nil.1 above) other

/-- An aggregate inside an expression that is none itself occurs in a direct subexpression. -/
theorem callAt_cons_iff {call : AggregateCall} :
    e.CallAt (i :: p) call ↔ e.call? = none ∧ ∃ c, e.children[i]? = some c ∧ c.CallAt p call := by
  constructor
  · rintro ⟨inside, outermost⟩
    obtain ⟨c, child, here⟩ := at?_cons_eq_some_iff.1 inside
    refine ⟨?_, c, child, here, ?_⟩
    · rw [Option.eq_none_iff_forall_ne_some]
      intro outer found
      have top : e.at? [] = some outer.toExpr := congrArg some (call?_eq_some_iff.1 found)
      exact outermost [] List.nil_prefix (List.cons_ne_nil i p).symm outer top
    · intro q above other outer found
      have deeper : e.at? (i :: q) = some outer.toExpr := at?_cons_eq_some_iff.2 ⟨c, child, found⟩
      have apart : i :: q ≠ i :: p := fun same => other (List.cons.inj same).2
      exact outermost (i :: q) ((List.prefix_cons_inj i).2 above) apart outer deeper
  · rintro ⟨plain, c, child, here, outermost⟩
    refine ⟨at?_cons_eq_some_iff.2 ⟨c, child, here⟩, ?_⟩
    intro q above other outer found
    rcases List.prefix_cons_iff.1 above with rfl | ⟨q, rfl, shorter⟩
    · have top : e = outer.toExpr := Option.some.inj found
      rw [call?_eq_some_iff.2 top] at plain
      cases plain
    · obtain ⟨c', child', deeper⟩ := at?_cons_eq_some_iff.1 found
      have same : c = c' := Option.some.inj (child.symm.trans child')
      have apart : q ≠ p := fun same => other (congrArg (i :: ·) same)
      exact outermost q shorter apart outer (same ▸ deeper)

end Parts

/-! ## Occurrences in order -/

/-- The pairs are what occurs with its places, in the order of reading. -/
structure Enumerates {α : Type} (Occurs : List Nat → α → Prop)
    (occurrences : List (List Nat × α)) : Prop where
  ordered : occurrences.Pairwise fun a b => Precedes a.1 b.1
  mem_iff : ∀ p x, (p, x) ∈ occurrences ↔ Occurs p x

namespace Enumerates

variable {α : Type} {Occurs Occurs' : List Nat → α → Prop} {found found' : List (List Nat × α)}

/-- What occurs in a direct subexpression occurs behind its position. -/
theorem enter (enumerates : Enumerates Occurs found) (i : Nat) :
    Enumerates (fun p x => ∃ q, p = i :: q ∧ Occurs q x)
      (found.map fun o => (i :: o.1, o.2)) where
  ordered := List.pairwise_map.2 (enumerates.ordered.imp List.Lex.cons)
  mem_iff := by
    intro p x
    constructor
    · intro held
      obtain ⟨o, listed, same⟩ := List.mem_map.1 held
      cases same
      exact ⟨o.1, rfl, (enumerates.mem_iff o.1 o.2).1 listed⟩
    · rintro ⟨q, rfl, occurs⟩
      exact List.mem_map.2 ⟨(q, x), (enumerates.mem_iff q x).2 occurs, rfl⟩

/-- What is read before everything else may be listed before it. -/
theorem append (first : Enumerates Occurs found) (second : Enumerates Occurs' found')
    (before : ∀ p x q y, Occurs p x → Occurs' q y → Precedes p q) :
    Enumerates (fun p x => Occurs p x ∨ Occurs' p x) (found ++ found') where
  ordered := by
    refine List.pairwise_append.2 ⟨first.ordered, second.ordered, ?_⟩
    intro a early b late
    exact before _ _ _ _ ((first.mem_iff a.1 a.2).1 early) ((second.mem_iff b.1 b.2).1 late)
  mem_iff := by
    intro p x
    rw [List.mem_append, first.mem_iff, second.mem_iff]

end Enumerates

section Traversal

variable {α : Type} {pick : Expr → Option α} {Occurs : Expr → List Nat → α → Prop}
  {collect : Expr → List α}

/-- What occurs in the expressions of a list whose positions begin with `n`. -/
def OccursFrom (Occurs : Expr → List Nat → α → Prop) (n : Nat) (cs : List Expr) (p : List Nat)
    (x : α) : Prop :=
  ∃ i q c, p = (n + i) :: q ∧ cs[i]? = some c ∧ Occurs c q x

/-- What occurs in a list occurs in its first expression or in the later ones. -/
theorem occursFrom_cons_iff {n : Nat} {c : Expr} {cs : List Expr} {p : List Nat} {x : α} :
    OccursFrom Occurs n (c :: cs) p x ↔
      (∃ q, p = n :: q ∧ Occurs c q x) ∨ OccursFrom Occurs (n + 1) cs p x := by
  have shift (i : Nat) : n + (i + 1) = n + 1 + i := by omega
  constructor
  · rintro ⟨i, q, d, rfl, child, occurs⟩
    cases i with
    | zero =>
      cases child
      exact Or.inl ⟨q, rfl, occurs⟩
    | succ i => exact Or.inr ⟨i, q, d, by rw [shift i], child, occurs⟩
  · rintro (⟨q, rfl, occurs⟩ | ⟨i, q, d, rfl, child, occurs⟩)
    · exact ⟨0, q, c, rfl, rfl, occurs⟩
    · exact ⟨i + 1, q, d, by rw [shift i], child, occurs⟩

/-- Expressions are read one after the other. -/
theorem exists_enumeration_from {cs : List Expr} (n : Nat)
    (each : ∀ c ∈ cs, ∃ found, Enumerates (Occurs c) found ∧ found.map Prod.snd = collect c) :
    ∃ found, Enumerates (OccursFrom Occurs n cs) found ∧
      found.map Prod.snd = cs.flatMap collect := by
  induction cs generalizing n with
  | nil => exact ⟨[], ⟨.nil, fun p x => by simp [OccursFrom]⟩, rfl⟩
  | cons c cs ih =>
    obtain ⟨⟨here, enumerates, collected⟩, others⟩ := List.forall_mem_cons.1 each
    obtain ⟨later, enumerates', collected'⟩ := ih (n + 1) others
    have all := (enumerates.enter n).append enumerates' (by
      rintro _ x _ y ⟨p, rfl, -⟩ ⟨i, q, d, rfl, -⟩
      exact List.Lex.rel (by omega))
    refine ⟨_, ⟨all.ordered, fun p x => ?_⟩, ?_⟩
    · rw [all.mem_iff, occursFrom_cons_iff]
    · rw [List.map_append, List.map_map, collected', List.flatMap_cons, ← collected]
      rfl

/-- Occurrences are found by picking from an expression, and else by going on to its parts. -/
structure Traverses (pick : Expr → Option α) (Occurs : Expr → List Nat → α → Prop)
    (collect : Expr → List α) : Prop where
  root : ∀ {e x}, Occurs e [] x ↔ pick e = some x
  below : ∀ {e i p x}, Occurs e (i :: p) x ↔
    pick e = none ∧ ∃ c, e.children[i]? = some c ∧ Occurs c p x
  picked : ∀ {e x}, pick e = some x → collect e = [x]
  passed : ∀ {e}, pick e = none → collect e = e.children.flatMap collect

/-- What is found is everything that occurs, in the order of reading. -/
theorem Traverses.exists_enumeration (traverses : Traverses pick Occurs collect) (e : Expr) :
    ∃ found, Enumerates (Occurs e) found ∧ found.map Prod.snd = collect e := by
  induction e using induct with
  | step e ih =>
    cases here : pick e with
    | some x =>
      refine ⟨[([], x)], ⟨List.pairwise_singleton _ _, ?_⟩, (traverses.picked here).symm⟩
      intro p y
      cases p with
      | nil => simp [traverses.root, here, eq_comm]
      | cons i p => simp [traverses.below, here]
    | none =>
      obtain ⟨found, enumerates, collected⟩ := exists_enumeration_from 0 ih
      refine ⟨found, ⟨enumerates.ordered, ?_⟩, collected.trans (traverses.passed here).symm⟩
      intro p x
      rw [enumerates.mem_iff]
      cases p with
      | nil => simp [OccursFrom, traverses.root, here]
      | cons i p => simp [OccursFrom, traverses.below, here]

/-- Columns are picked, and nothing lies below them. -/
theorem traverses_columns : Traverses column? ColumnAt columns where
  root := columnAt_nil_iff
  below := columnAt_cons_iff
  picked := by
    intro e attr found
    rw [column?_eq_some_iff.1 found, columns]
  passed := by
    intro e plain
    cases e with
    | column => cases plain
    | literal => rw [columns, children, List.flatMap_nil]
    | aliased inner | cast inner => rw [columns, children, List.flatMap_singleton]
    | binary op left right => rw [columns, children, List.flatMap_cons, List.flatMap_singleton]
    | scalar _ args | aggregate _ args => rw [columns, columnsOf_eq_flatMap, children]

/-- Aggregates are picked, and what lies below them is not looked at. -/
theorem traverses_calls : Traverses call? CallAt calls where
  root := callAt_nil_iff
  below := callAt_cons_iff
  picked := by
    intro e call found
    rw [call?_eq_some_iff.1 found, AggregateCall.toExpr, calls]
  passed := by
    intro e plain
    cases e with
    | aggregate => cases plain
    | column | literal => rw [calls, children, List.flatMap_nil]
    | aliased inner | cast inner => rw [calls, children, List.flatMap_singleton]
    | binary op left right => rw [calls, children, List.flatMap_cons, List.flatMap_singleton]
    | scalar _ args => rw [calls, callsOf_eq_flatMap, children]

end Traversal

/-- A column is listed exactly if it occurs at some place. -/
theorem mem_columns_iff {e : Expr} {attr : Attribute} :
    attr ∈ e.columns ↔ ∃ p, e.ColumnAt p attr := by
  obtain ⟨found, enumerates, collected⟩ := traverses_columns.exists_enumeration e
  rw [← collected]
  constructor
  · intro listed
    obtain ⟨o, held, rfl⟩ := List.mem_map.1 listed
    exact ⟨o.1, (enumerates.mem_iff o.1 o.2).1 held⟩
  · rintro ⟨p, occurs⟩
    exact List.mem_map.2 ⟨(p, attr), (enumerates.mem_iff p attr).2 occurs, rfl⟩

/-! ## First occurrences -/

/-- The list has one element for each key that occurs: the first one to be read. Its elements are in
the order of reading. -/
structure ListsFirst {α κ : Type} (Occurs : List Nat → α → Prop) (key : α → κ) (xs : List α) :
    Prop where
  distinct : (xs.map key).Nodup
  complete : ∀ k, k ∈ xs.map key ↔ ∃ p x, Occurs p x ∧ key x = k
  first : ∃ places : List (List Nat), places.Pairwise Precedes ∧
    List.Forall₂ (fun p x => Occurs p x ∧
      ∀ q y, Occurs q y → key y = key x → ¬ Precedes q p) places xs

/-- Of what occurs, the first element of each key is kept. -/
theorem Enumerates.listsFirst {α κ : Type} [DecidableEq κ] {Occurs : List Nat → α → Prop}
    {found : List (List Nat × α)} (enumerates : Enumerates Occurs found) (key : α → κ) :
    ListsFirst Occurs key (distinctBy key (found.map Prod.snd)) where
  distinct := distinctBy.nodup_keys key _
  complete := by
    intro k
    rw [distinctBy.mem_keys_iff, List.map_map]
    constructor
    · intro held
      obtain ⟨o, listed, rfl⟩ := List.mem_map.1 held
      exact ⟨o.1, o.2, (enumerates.mem_iff o.1 o.2).1 listed, rfl⟩
    · rintro ⟨p, x, occurs, rfl⟩
      exact List.mem_map.2 ⟨(p, x), (enumerates.mem_iff p x).2 occurs, rfl⟩
  first := by
    let kept := distinctBy (fun o : List Nat × α => key o.2) found
    refine ⟨kept.map Prod.fst, ?_, ?_⟩
    · exact List.pairwise_map.2 (enumerates.ordered.sublist (distinctBy.sublist _ found))
    · rw [distinctBy.map, List.forall₂_map_left_iff, List.forall₂_map_right_iff, List.forall₂_same]
      intro o held
      refine ⟨(enumerates.mem_iff o.1 o.2).1 (distinctBy.mem_of_mem held), ?_⟩
      intro q y occurs same earlier
      have listed := (enumerates.mem_iff q y).2 occurs
      rcases distinctBy.first enumerates.ordered held listed same with rfl | before
      · exact earlier.asymm earlier
      · exact before.asymm earlier

/-- The collectors are complete and free of duplicates. The aggregates of an expression are the
first outermost ones of each identity, and its references are the first columns of each identity,
wherever they occur; both are in the order of reading. -/
theorem listsFirst_aggregates_and_references (e : Expr) :
    ListsFirst e.CallAt (fun call => call.id) e.aggregates ∧
    ListsFirst e.ColumnAt Attribute.id e.references := by
  obtain ⟨calls, calling, called⟩ := traverses_calls.exists_enumeration e
  obtain ⟨columns, reading, read⟩ := traverses_columns.exists_enumeration e
  rw [aggregates, references, ← called, ← read]
  exact ⟨calling.listsFirst _, reading.listsFirst _⟩

end Expr

end Rollup
