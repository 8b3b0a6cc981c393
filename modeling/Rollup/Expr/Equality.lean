import Rollup.Expr.Basic

/-!
# Equality of expressions

Two expressions are the same if they are built alike from columns that agree in every field and
from constants that are equal as values. `same` compares them, and `Alike` says how each of them is
built, for an induction over both at once.
-/

namespace Rollup.Expr

mutual

/-- The expressions are built alike. -/
def same : Expr → Expr → Bool
  | column a, column b => a == b
  | literal v t, literal w u => v.same w && t == u
  | aliased d n i, aliased e m j => d.same e && n == m && i == j
  | cast d t, cast e u => d.same e && t == u
  | scalar f ds, scalar g es => f == g && sameAll ds es
  | binary o a b, binary p c d => a.same c && o == p && b.same d
  | aggregate h ds, aggregate k es => h == k && sameAll ds es
  | _, _ => false

/-- The lists have the same length and the same expressions in each place. -/
def sameAll : List Expr → List Expr → Bool
  | [], [] => true
  | d :: ds, e :: es => d.same e && sameAll ds es
  | _, _ => false

end

/-- The expressions are built alike, told constructor by constructor. -/
inductive Alike : Expr → Expr → Prop
  | column (attr : Attribute) : Alike (column attr) (column attr)
  | literal {v w : Value} (type : DataType) (equal : v.same w = true) :
      Alike (literal v type) (literal w type)
  | aliased {d e : Expr} (name : String) (id : ExprId) (inner : Alike d e) :
      Alike (aliased d name id) (aliased e name id)
  | cast {d e : Expr} (type : DataType) (inner : Alike d e) : Alike (cast d type) (cast e type)
  | scalar {ds es : List Expr} (func : ScalarFunction) (length : ds.length = es.length)
      (args : ∀ i (h : i < ds.length) (h' : i < es.length), Alike ds[i] es[i]) :
      Alike (scalar func ds) (scalar func es)
  | binary {a b c d : Expr} (op : BinaryOp) (left : Alike a c) (right : Alike b d) :
      Alike (binary op a b) (binary op c d)
  | aggregate {ds es : List Expr} (head : AggregateHead) (length : ds.length = es.length)
      (args : ∀ i (h : i < ds.length) (h' : i < es.length), Alike ds[i] es[i]) :
      Alike (aggregate head ds) (aggregate head es)

/-- Lists are the same if they are equally long and the same in each place. -/
theorem sameAll_iff {ds es : List Expr} :
    sameAll ds es = true ↔ ds.length = es.length ∧
      ∀ i (h : i < ds.length) (h' : i < es.length), ds[i].same es[i] = true := by
  induction ds generalizing es with
  | nil => cases es <;> simp [sameAll]
  | cons d ds ih =>
    cases es with
    | nil => simp [sameAll]
    | cons e es =>
      simp only [sameAll, Bool.and_eq_true, ih, List.length_cons, Nat.add_right_cancel_iff]
      constructor
      · rintro ⟨first, length, rest⟩
        refine ⟨length, fun i h h' => ?_⟩
        cases i with
        | zero => exact first
        | succ i => exact rest i (Nat.lt_of_succ_lt_succ h) (Nat.lt_of_succ_lt_succ h')
      · rintro ⟨length, each⟩
        exact ⟨each 0 (Nat.succ_pos _) (Nat.succ_pos _), length, fun i h h' =>
          each (i + 1) (Nat.succ_lt_succ h) (Nat.succ_lt_succ h')⟩

/-- Expressions that are the same are built alike. -/
theorem alike_of_same {d e : Expr} (equal : d.same e = true) : Alike d e := by
  induction d using induct generalizing e with
  | step d ih =>
    -- one case for each outermost constructor that the two can share, and the last for all others
    unfold same at equal
    split at equal
    all_goals simp only [Bool.and_eq_true, beq_iff_eq, sameAll_iff, Bool.false_eq_true] at equal
    · next a b => exact equal ▸ .column a
    · next v t w u =>
      obtain ⟨values, rfl⟩ := equal
      exact .literal t values
    · next d n i e m j =>
      obtain ⟨⟨inner, rfl⟩, rfl⟩ := equal
      exact .aliased n i (ih d List.mem_cons_self inner)
    · next d t e u =>
      obtain ⟨inner, rfl⟩ := equal
      exact .cast t (ih d List.mem_cons_self inner)
    · next f ds g es =>
      obtain ⟨rfl, length, each⟩ := equal
      exact .scalar f length fun i h h' => ih ds[i] (List.getElem_mem h) (each i h h')
    · next o a b p c d =>
      obtain ⟨⟨left, rfl⟩, right⟩ := equal
      exact .binary o (ih a List.mem_cons_self left)
        (ih b (List.mem_cons_of_mem a List.mem_cons_self) right)
    · next f ds g es =>
      obtain ⟨rfl, length, each⟩ := equal
      exact .aggregate f length fun i h h' => ih ds[i] (List.getElem_mem h) (each i h h')

/-- Two expressions are the same exactly if they are built alike. -/
theorem same_iff_alike {d e : Expr} : d.same e = true ↔ Alike d e := by
  refine ⟨alike_of_same, fun alike => ?_⟩
  induction alike with
  | column | aliased | cast | binary => simp_all [same]
  | literal type equal => simpa [same] using equal
  | scalar func length args ih | aggregate head length args ih =>
    simpa [same, sameAll_iff] using ⟨length, ih⟩

/-- Every expression is the same as itself. -/
@[simp] theorem same_refl (e : Expr) : e.same e = true := by
  induction e using induct with
  | step e ih =>
    cases e with
    | column | literal => simp [same]
    | aliased | cast => simp_all [same, children]
    | scalar f args | aggregate f args =>
      have each : sameAll args args = true :=
        sameAll_iff.2 ⟨rfl, fun i h _ => ih args[i] (List.getElem_mem h)⟩
      simp [same, each]
    | binary => simp_all [same, children]

end Rollup.Expr
