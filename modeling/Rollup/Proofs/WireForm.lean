import Rollup.Json.Query
import Rollup.Proofs.HostTypes

/-!
# Injectivity of the wire form

A query is sent to the store as a JSON tree. Its parts can be recovered from that tree: every kind
of part is known by its tag or by the fields that it writes, and every field holds a part that is
known by its own tree. Only infinities and NaNs are lost, since they are all written as null. The
relation and the number of the next generated name are not written, and two queries that differ in
nothing else have one wire form.
-/

namespace Rollup

/-! ## Tags -/

/-- A data type is known by its tag. -/
@[simp] theorem DataType.tag_inj {t u : DataType} : t.tag = u.tag ↔ t = u := by
  cases t <;> cases u <;> decide

/-- A scalar function is known by its tag. -/
@[simp] theorem ScalarFunction.tag_inj {f g : ScalarFunction} : f.tag = g.tag ↔ f = g := by
  cases f <;> cases g <;> decide

/-- An operator is known by its tag. -/
@[simp] theorem BinaryOp.tag_inj {o p : BinaryOp} : o.tag = p.tag ↔ o = p := by
  cases o <;> cases p <;> decide

/-- An operator is known by its sign. -/
@[simp] theorem BinaryOp.symbol_inj {o p : BinaryOp} : o.symbol = p.symbol ↔ o = p := by
  cases o <;> cases p <;> decide

/-- An aggregate is known by its tag. -/
@[simp] theorem AggregateFunction.tag_inj {f g : AggregateFunction} : f.tag = g.tag ↔ f = g := by
  cases f <;> cases g <;> decide

/-- An aggregate mode is known by its tag. -/
@[simp] theorem AggregateMode.tag_inj {m n : AggregateMode} : m.tag = n.tag ↔ m = n := by
  cases m <;> cases n <;> decide

/-- A store type is known by its name. -/
@[simp] theorem StoreType.name_inj {t u : StoreType} : t.name = u.name ↔ t = u := by
  cases t <;> cases u <;> decide

/-- An aggregator is known by its name. -/
@[simp] theorem NativeFunction.name_inj {f g : NativeFunction} : f.name = g.name ↔ f = g := by
  cases f <;> cases g <;> decide

/-- No aggregator has the name by which counts from a sketch are known. -/
@[simp] theorem NativeFunction.name_ne_hyperUnique (f : NativeFunction) :
    f.name ≠ "hyperUnique" := by
  cases f <;> decide

/-! ## Expressions -/

/-- Every floating-point constant in the expression is finite. -/
def Expr.IsFinite (e : Expr) : Prop :=
  ∀ x type, .literal (.float x) type ∈ e.subexprs → x.isFinite = true

/-- The parts of a finite expression are finite. -/
theorem Expr.IsFinite.child {e c : Expr} (finite : e.IsFinite) (child : c ∈ e.children) :
    c.IsFinite :=
  fun x type inside => finite x type (subexprs_subset_of_child child inside)

/-- Lists are equal if their images are, and each element of the first is known by its image. -/
theorem eq_of_map_eq {α β : Type} {f : α → β} {xs ys : List α}
    (known : ∀ x ∈ xs, ∀ y, f x = f y → x = y) (same : xs.map f = ys.map f) : xs = ys := by
  induction xs generalizing ys with
  | nil => exact (List.map_eq_nil_iff.1 same.symm).symm
  | cons x xs ih =>
    obtain ⟨y, rest, rfl, first, later⟩ := List.map_eq_cons_iff.1 same.symm
    rw [known x List.mem_cons_self y first.symm,
      ih (fun x inside => known x (List.mem_cons_of_mem _ inside)) later.symm]

namespace Json

/-- Tagged objects are equal if their tags and their contents are. -/
@[simp] theorem tagged_inj {tag tag' : String} {contents contents' : Json} :
    tagged tag contents = tagged tag' contents' ↔ tag = tag' ∧ contents = contents' := by
  simp [tagged]

/-- Objects that begin with one key are equal if its values and the later fields are. -/
@[simp] theorem object_cons_inj {key : String} {value value' : Json}
    {fields fields' : List (String × Json)} :
    object ((key, value) :: fields) = object ((key, value') :: fields') ↔
      value = value' ∧ object fields = object fields' := by
  simp

/-- Lists of texts are known by their arrays. -/
@[simp] theorem ofStrings_inj {items items' : List String} :
    ofStrings items = ofStrings items' ↔ items = items' := by
  rw [ofStrings, ofStrings, array.injEq]
  exact List.map_inj_right fun _ _ same => string.inj same

/-- A finite number is known by what is written for it. -/
theorem ofBinary64_inj {x y : Binary64} (finite : x.isFinite = true)
    (same : ofBinary64 x = ofBinary64 y) : x = y := by
  unfold ofBinary64 at same
  rw [if_pos finite] at same
  split at same
  · exact number.inj same
  · cases same

/-- A constant is known by its JSON, unless it is an infinity or a NaN. -/
theorem ofValue_inj {v w : Value} (finite : ∀ x, v = .float x → x.isFinite = true)
    (same : ofValue v = ofValue w) : v = w := by
  cases v with
  | float x =>
    cases w with
    | float y =>
      rw [ofValue, ofValue, tagged_inj] at same
      rw [ofBinary64_inj (finite x rfl) same.2]
    | null | bool | int | string => simp [ofValue, tagged] at same
  | null | bool | int | string => cases w <;> simp_all [ofValue, tagged]

/-- An identity is known by its number. -/
@[simp] theorem ofExprId_inj {id id' : ExprId} : ofExprId id = ofExprId id' ↔ id = id' := by
  cases id
  cases id'
  simp only [ofExprId, int.injEq, Int.ofNat_inj, ExprId.mk.injEq]

/-- A column is known by its JSON. -/
@[simp] theorem ofAttribute_inj {a b : Attribute} : ofAttribute a = ofAttribute b ↔ a = b := by
  cases a
  cases b
  simp [ofAttribute]

/-- A finite expression is known by its JSON. -/
theorem ofExpr_inj {e e' : Expr} (finite : e.IsFinite) (same : ofExpr e = ofExpr e') : e = e' := by
  induction e using Expr.induct generalizing e' with
  | step e ih =>
    have known : ∀ c ∈ e.children, ∀ c', ofExpr c = ofExpr c' → c = c' := fun c child c' =>
      ih c child (finite.child child)
    -- the tags tell the kinds of expressions apart, so that only equal kinds are left to compare
    cases e with
    | column attr =>
      cases e' with
      | column attr' => simpa [ofExpr] using same
      | _ => simp [ofExpr] at same
    | literal value type =>
      cases e' with
      | literal value' type' =>
        simp only [ofExpr, tagged_inj, object_cons_inj, string.injEq, DataType.tag_inj, true_and,
          and_true] at same
        obtain ⟨values, rfl⟩ := same
        have isFinite : ∀ x, value = .float x → x.isFinite = true := by
          rintro x rfl
          exact finite x type (Expr.mem_subexprs_self _)
        rw [ofValue_inj isFinite values]
      | _ => simp [ofExpr] at same
    | aliased inner name id =>
      cases e' with
      | aliased inner' name' id' =>
        simp only [ofExpr, tagged_inj, object_cons_inj, string.injEq, ofExprId_inj, true_and,
          and_true] at same
        obtain ⟨inners, rfl, rfl⟩ := same
        rw [known inner List.mem_cons_self inner' inners]
      | _ => simp [ofExpr] at same
    | cast inner type =>
      cases e' with
      | cast inner' type' =>
        simp only [ofExpr, tagged_inj, object_cons_inj, string.injEq, DataType.tag_inj, true_and,
          and_true] at same
        obtain ⟨inners, rfl⟩ := same
        rw [known inner List.mem_cons_self inner' inners]
      | _ => simp [ofExpr] at same
    | scalar func args =>
      cases e' with
      | scalar func' args' =>
        simp only [ofExpr, ofExprs_eq_map, tagged_inj, object_cons_inj, string.injEq, array.injEq,
          ScalarFunction.tag_inj, true_and, and_true] at same
        obtain ⟨rfl, written⟩ := same
        have args : args = args' := eq_of_map_eq known written
        rw [args]
      | _ => simp [ofExpr] at same
    | binary op left right =>
      cases e' with
      | binary op' left' right' =>
        simp only [ofExpr, tagged_inj, object_cons_inj, string.injEq, BinaryOp.tag_inj, true_and,
          and_true] at same
        obtain ⟨lefts, rfl, rights⟩ := same
        rw [known left List.mem_cons_self left' lefts,
          known right (List.mem_cons_of_mem left List.mem_cons_self) right' rights]
      | _ => simp [ofExpr] at same
    | aggregate head args =>
      cases e' with
      | aggregate head' args' =>
        simp only [ofExpr, ofExprs_eq_map, tagged_inj, object_cons_inj, string.injEq, array.injEq,
          bool.injEq, ofExprId_inj, AggregateFunction.tag_inj, AggregateMode.tag_inj,
          DataType.tag_inj, true_and, and_true] at same
        obtain ⟨ids, funcs, written, distincts, modes, types⟩ := same
        have heads : head = head' := by
          cases head
          cases head'
          exact AggregateHead.mk.injEq .. ▸ ⟨ids, funcs, distincts, modes, types⟩
        have args : args = args' := eq_of_map_eq known written
        rw [heads, args]
      | _ => simp [ofExpr] at same

/-! ## Parts of a query -/

/-- A script is known by its JSON. -/
@[simp] theorem ofScriptFunction_inj {f g : ScriptFunction} :
    ofScriptFunction f = ofScriptFunction g ↔ f = g := by
  cases f
  cases g
  simp [ofScriptFunction]

/-- A derivation is known by its JSON. -/
@[simp] theorem ofExtraction_inj {x y : Extraction} : ofExtraction x = ofExtraction y ↔ x = y := by
  cases x <;> cases y <;> simp [ofExtraction]

/-- A dimension is known by its JSON. -/
theorem ofDimension_inj {d d' : Dimension} : ofDimension d = ofDimension d' ↔ d = d' := by
  obtain ⟨source, outputName, extraction?⟩ := d
  obtain ⟨source', outputName', extraction'?⟩ := d'
  cases extraction? <;> cases extraction'? <;> simp [ofDimension]

/-- An aggregation is known by its JSON. -/
theorem ofAggregation_inj {a b : Aggregation} (same : ofAggregation a = ofAggregation b) :
    a = b := by
  cases a with
  | native function name field? =>
    cases b with
    | native function' name' field'? =>
      cases field? <;> cases field'? <;> simp_all [ofAggregation]
    | hyperUnique name' field' =>
      -- both write the same fields, and differ in the type that they name
      cases field? <;> simp [ofAggregation] at same
    | cardinality | script => cases field? <;> simp [ofAggregation] at same
  | hyperUnique name field =>
    cases b with
    | native function' name' field'? =>
      cases field'? with
      | none => simp [ofAggregation] at same
      | some field' =>
        simp only [ofAggregation, object_cons_inj, string.injEq] at same
        exact absurd same.2.2.1.symm function'.name_ne_hyperUnique
    | hyperUnique => simp_all [ofAggregation]
    | cardinality | script => simp [ofAggregation] at same
  | cardinality name fields =>
    cases b with
    | native function' name' field'? => cases field'? <;> simp [ofAggregation] at same
    | cardinality => simp_all [ofAggregation]
    | hyperUnique | script => simp [ofAggregation] at same
  | script name function =>
    cases b with
    | native function' name' field'? => cases field'? <;> simp [ofAggregation] at same
    | script name' function' =>
      cases function
      cases function'
      simp_all [ofAggregation]
    | hyperUnique | cardinality => simp [ofAggregation] at same

/-- A reference is known by its JSON. -/
@[simp] theorem ofFieldAccess_inj {field field' : String} :
    ofFieldAccess field = ofFieldAccess field' ↔ field = field' := by
  simp [ofFieldAccess]

/-- A post-aggregation is known by its JSON. -/
theorem ofPostAggregation_inj {p p' : PostAggregation}
    (same : ofPostAggregation p = ofPostAggregation p') : p = p' := by
  cases p
  cases p'
  simp only [ofPostAggregation, object_cons_inj, array.injEq, string.injEq, BinaryOp.symbol_inj]
    at same
  obtain ⟨written, rfl, rfl, -⟩ := same
  rw [List.map_inj_right fun _ _ same => ofFieldAccess_inj.1 same] at written
  rw [written]

/-- A result column for a finite expression is known by its JSON. -/
theorem ofResultColumn_inj {r r' : ResultColumn} (finite : r.expr.IsFinite)
    (same : ofResultColumn r = ofResultColumn r') : r = r' := by
  obtain ⟨name, expr, storeType, hostType⟩ := r
  obtain ⟨name', expr', storeType', hostType'⟩ := r'
  simp only [ofResultColumn, object_cons_inj, string.injEq, StoreType.name_inj, DataType.tag_inj,
    and_true] at same
  obtain ⟨rfl, written, rfl, rfl⟩ := same
  have exprs : expr = expr' := ofExpr_inj finite written
  rw [exprs]

/-- If one of two queries has only finite constants in the expressions of its result columns, the
queries have one wire form exactly if they have the same dimensions, aggregations, post-aggregations
and result columns, in the same order. -/
theorem ofQuery_eq_iff {q q' : Query} (finite : ∀ r ∈ q.results.values, r.expr.IsFinite) :
    ofQuery q = ofQuery q' ↔
      q.dimensions = q'.dimensions ∧ q.aggregations = q'.aggregations ∧
        q.postAggregations = q'.postAggregations ∧ q.results = q'.results := by
  constructor
  · intro same
    simp only [ofQuery, object_cons_inj, array.injEq, and_true] at same
    obtain ⟨dimensions, aggregations, posts, results⟩ := same
    have entries : q.results.entries = q'.results.entries := by
      refine eq_of_map_eq (fun entry held entry' same => ?_) (object.inj results)
      obtain ⟨keys, columns⟩ := Prod.mk.inj same
      have held : entry.2 ∈ q.results.values := List.mem_map_of_mem held
      exact Prod.ext keys (ofResultColumn_inj (finite entry.2 held) columns)
    exact ⟨List.map_inj_right (fun _ _ => ofDimension_inj.1) |>.1 dimensions,
      List.map_inj_right (fun _ _ => ofAggregation_inj) |>.1 aggregations,
      List.map_inj_right (fun _ _ => ofPostAggregation_inj) |>.1 posts, Table.ext entries⟩
  · rintro ⟨dimensions, aggregations, posts, results⟩
    rw [ofQuery, dimensions, aggregations, posts, results, ofQuery]

end Json

namespace Sales

/-- The largest price by city and year, multiplied by a factor. -/
def scaledPrice (factor : Value) : Expr :=
  .aggregate { id := ⟨61⟩, func := .max, dataType := .float64 }
    [.binary .mul (.cast (.column price) .float64) (.literal factor .float64)]

/-- A query with parts of several kinds. -/
def report (relation : Relation) (nextAlias : Nat) (factor : Value) : Query where
  relation := relation
  dimensions := [{ source := "city", outputName := "city" },
    { source := "ts", outputName := "year", extraction? := some (.timeFormat "yyyy" "UTC") }]
  aggregations := [.native .doubleMax "alias-0" (some "price"), .hyperUnique "alias-1" "price",
    .script "alias-2" { params := ["price"], body := "price * 0.5" }]
  postAggregations := [.division "alias-3" "alias-0" "alias-1"]
  results := .ofList [
    ("city", ⟨"city", .column scannedCity, .string, .string⟩),
    ("alias-2", ⟨"alias-2", scaledPrice factor, .double, .float64⟩)]
  nextAlias := nextAlias

/-- One half. -/
def half : Binary64 := ⟨0x3fe0000000000000⟩

end Sales

/-- The report on the sales has one wire form over any relation and with any number to try next, and
another one if a factor deep inside a result column changes its sign. -/
theorem ofQuery_report :
    (∀ r ∈ (Sales.report Sales.relation 4 (.float Sales.half)).results.values,
      r.expr.IsFinite) ∧
    Json.ofQuery (Sales.report Sales.relation 4 (.float Sales.half)) =
      Json.ofQuery (Sales.report { Sales.relation with columns := [] } 0 (.float Sales.half)) ∧
    Json.ofQuery (Sales.report Sales.relation 4 (.float Sales.half)) ≠
      Json.ofQuery (Sales.report Sales.relation 4 (.float ⟨0xbfe0000000000000⟩)) := by
  have finite : ∀ r ∈ (Sales.report Sales.relation 4 (.float Sales.half)).results.values,
      r.expr.IsFinite := by
    intro r held x type inside
    change r ∈ [_, _] at held
    simp only [List.mem_cons, List.not_mem_nil, or_false] at held
    rcases held with rfl | rfl
    · simp [Expr.subexprs] at inside
    · have known : x = Sales.half ∧ type = .float64 := by
        simpa [Expr.subexprs, Sales.scaledPrice] using inside
      rw [known.1]
      decide
  refine ⟨finite, (Json.ofQuery_eq_iff finite).2 ⟨rfl, rfl, rfl, rfl⟩, ?_⟩
  intro same
  obtain ⟨-, -, -, results⟩ := (Json.ofQuery_eq_iff finite).1 same
  have prices : Sales.scaledPrice (.float Sales.half) =
      Sales.scaledPrice (.float ⟨0xbfe0000000000000⟩) := by
    have columns := congrArg (fun t => (t.get? "alias-2").map ResultColumn.expr) results
    exact Option.some.inj columns
  simp [Sales.scaledPrice, Sales.half] at prices

end Rollup
