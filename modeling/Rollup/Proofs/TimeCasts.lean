import Rollup.Proofs.Casts
import Rollup.Proofs.Reads

/-!
# Casts under a point in time

A formatted point in time, or a part of one, is recognized under casts: those around the call, and
those around the point in time that it is given. Where the point in time is the time column,
nothing but casts is taken away from around it, and the call is answered as if it were given the
column as it is. This includes casts that keep what the call reads: a cast to a timestamp keeps all
of it, and one to a date the day, of which the year, the month and the day of the month are parts.
-/

namespace Rollup

/-- What is a call under casts has no alias around it. -/
theorem Expr.stripAlias_of_call {e : Expr} {func : ScalarFunction} {args : List Expr}
    (call : e.stripCasts = .scalar func args) : e.stripAlias = e := by
  obtain ⟨casts, cast⟩ := exists_castOf e
  rw [call] at cast
  exact cast.stripAlias_eq rfl

/-- A cast to this type keeps what a function reads from a point in time: a timestamp has all of it,
and a date has the day. -/
def ScalarFunction.keeps (func : ScalarFunction) : DataType → Bool
  | .timestamp => true
  | .date => func == .year || func == .month || func == .dayOfMonth
  | _ => false

namespace TimeSource

variable {r : Relation} {e : Expr} {point : TimeSource}

/-- Only what lies under the casts of an expression matters for its point in time. -/
theorem ofExpr?_congr {e' : Expr} (same : e'.stripCasts = e.stripCasts) :
    ofExpr? r e' = ofExpr? r e := by
  rw [ofExpr?, same, ← ofExpr?]

/-- A point in time that is read from the time column is that column under casts. A text that is
read as time is a dimension, and no dimension has the name of the time column. -/
theorem exists_column_of_source (found : ofExpr? r e = some point) {format timezone : String}
    (reads : (point.format format timezone).source = r.timeColumn) :
    ∃ attr, e.stripCasts = .column attr ∧ r.isTimeColumn attr.name = true := by
  unfold ofExpr? at found
  split at found
  · rename_i attr bare
    split at found
    · rename_i isTime
      exact ⟨attr, bare, isTime⟩
    · cases found
  · split at found
    · split at found
      · rename_i dimension inputFormat isDimension isFormat
        cases found
        have other := (Relation.dimension?_eq_some_iff.1 isDimension).2.2
        have named : r.isTimeColumn dimension.name = true := by
          rw [show dimension.name = r.timeColumn from reads]
          exact Text.sameName_refl r.timeColumn
        rw [named] at other
        cases other
      · cases found
    · cases found
  · cases found

end TimeSource

namespace TimeExtraction

variable {r : Relation} {e : Expr} {zone format : String} {time : TimeExtraction}

/-- A written point in time is the same under any other casts. -/
theorem of?_congr {e' : Expr} (same : e'.stripCasts = e.stripCasts) :
    of? r e' format zone = of? r e format zone := by
  rw [of?, of?, TimeSource.ofExpr?_congr same]

/-- What is written from the time column is that column under casts. -/
theorem exists_column_of_source (found : of? r e format zone = some time)
    (reads : time.source = r.timeColumn) :
    ∃ attr, e.stripCasts = .column attr ∧ r.isTimeColumn attr.name = true := by
  unfold of? at found
  split at found
  · obtain ⟨point, known, rfl⟩ := Option.map_eq_some_iff.1 found
    exact TimeSource.exists_column_of_source known reads
  · cases found

/-- A formatted point in time is the first argument of a call, written in some format of some zone.
The casts around it may be exchanged for any others. -/
theorem exists_call_of_ofFormat? (found : ofFormat? r zone e = some time) :
    ∃ point rest format timezone, e.stripCasts = .scalar .dateFormat (point :: rest) ∧
      of? r point format timezone = some time ∧
      ∀ recast, recast.stripCasts = point.stripCasts →
        ofFormat? r zone (.scalar .dateFormat (recast :: rest)) = some time := by
  unfold ofFormat? at found
  split at found
  · rename_i point written call
    obtain ⟨format, constant, formatted⟩ := Option.bind_eq_some_iff.1 found
    refine ⟨point, [written], format, zone, call, formatted, ?_⟩
    intro recast same
    change written.stringLiteral?.bind (fun format => of? r recast format zone) = some time
    rw [constant, Option.bind_some, of?_congr same, formatted]
  · rename_i point written zoned call
    obtain ⟨format, constant, inZone⟩ := Option.bind_eq_some_iff.1 found
    obtain ⟨timezone, known, formatted⟩ := Option.bind_eq_some_iff.1 inZone
    refine ⟨point, [written, zoned], format, timezone, call, formatted, ?_⟩
    intro recast same
    change written.stringLiteral?.bind (fun format => zoned.stringLiteral?.bind
      (of? r recast format)) = some time
    rw [constant, Option.bind_some, known, Option.bind_some, of?_congr same, formatted]
  · cases found

/-- A part of a point in time is the only argument of a call, written in the format of that part.
The casts around it may be exchanged for any others. -/
theorem exists_call_of_ofPart? (found : ofPart? r zone e = some time) :
    ∃ func point format, e.stripAlias.stripCasts = .scalar func [point] ∧
      of? r point format zone = some time ∧
      ∀ recast, recast.stripCasts = point.stripCasts →
        ofPart? r zone (.scalar func [recast]) = some time := by
  obtain ⟨func, point, format, call, takes, written⟩ := exists_of?_of_ofPart? found
  refine ⟨func, point, format, call, written, ?_⟩
  intro recast same
  change (partFormat? func).bind (fun format => of? r recast format zone) = some time
  rw [takes, Option.bind_some, of?_congr same, written]

/-- A way to recognize a dimension that is derived from a point in time, in the default zone. -/
abbrev Recognizer := Relation → String → Expr → Option TimeExtraction

/-- The native ways to recognize such a dimension. -/
def recognizers : List Recognizer := [ofFormat?, ofPart?]

/-- What is recognized in an expression is a call over the time column, around which there is
nothing but casts. -/
structure DropsCasts (recognize : Recognizer) (r : Relation) (zone : String) (e : Expr)
    (time : TimeExtraction) (func : ScalarFunction) (point : Expr) (rest : List Expr)
    (attr : Attribute) : Prop where
  call : e.stripAlias.stripCasts = .scalar func (point :: rest)
  /-- The point in time is the column under its casts. -/
  casts : ∃ casts, Expr.CastOf (.column attr) casts point
  isTime : r.isTimeColumn attr.name = true
  /-- The call is answered as it is over the bare column, and over the column under any casts that
  keep what the function reads. -/
  answered : ∀ casts recast, Expr.CastOf (.column attr) casts recast →
    (∀ c ∈ casts, func.keeps c.2 = true) →
      recognize r zone (.scalar func (recast :: rest)) = some time

/-- What is recognized is a call that is given a point in time first, written in some format of some
zone. The casts around that point may be exchanged for any others. -/
theorem exists_call_of_recognized {recognize : Recognizer} (listed : recognize ∈ recognizers)
    (found : recognize r zone e = some time) :
    ∃ func point rest format timezone, e.stripAlias.stripCasts = .scalar func (point :: rest) ∧
      of? r point format timezone = some time ∧
      ∀ recast, recast.stripCasts = point.stripCasts →
        recognize r zone (.scalar func (recast :: rest)) = some time := by
  rcases List.mem_cons.1 listed with rfl | last
  · obtain ⟨point, rest, format, timezone, call, written, answered⟩ :=
      exists_call_of_ofFormat? found
    refine ⟨.dateFormat, point, rest, format, timezone, ?_, written, answered⟩
    rw [Expr.stripAlias_of_call call, call]
  · cases List.mem_singleton.1 last
    obtain ⟨func, point, format, call, written, answered⟩ := exists_call_of_ofPart? found
    exact ⟨func, point, [], format, zone, call, written, answered⟩

/-- Native time extraction takes away nothing but casts. Where it reads the time column, the
expression is a call over that column under casts, and is answered as without them. -/
theorem dropsCasts_of_recognized {recognize : Recognizer} (listed : recognize ∈ recognizers)
    (found : recognize r zone e = some time) (reads : time.source = r.timeColumn) :
    ∃ func point rest attr, DropsCasts recognize r zone e time func point rest attr := by
  obtain ⟨func, point, rest, format, timezone, call, written, answered⟩ :=
    exists_call_of_recognized listed found
  obtain ⟨attr, bare, isTime⟩ := exists_column_of_source written reads
  have casts := Expr.exists_castOf point
  rw [bare] at answered casts
  refine ⟨func, point, rest, attr, call, casts, isTime, ?_⟩
  intro casts' recast cast _
  exact answered recast cast.stripCasts_eq

end TimeExtraction

namespace Sales

/-- A part of the time of a sale, which is cast first. -/
def partOf (func : ScalarFunction) (target : DataType) : Expr :=
  .scalar func [.cast (.column scannedTime) target]

/-- The year of the day of a sale, where the day is cast again and the year is written as a text. -/
def yearOfDay : Expr :=
  .aliased (.cast (.scalar .year [.cast (.cast (.column scannedTime) .date) .timestamp]) .string)
    "year" ⟨77⟩

end Sales

/-- The year of the day of a sale is taken from the time of the sale. -/
theorem dropsCasts_yearOfDay :
    ∃ time, TimeExtraction.ofPart? Sales.relation "UTC" Sales.yearOfDay = some time ∧
      TimeExtraction.ofPart? ∈ TimeExtraction.recognizers ∧
      time.source = Sales.relation.timeColumn ∧
      ∃ func point rest attr, TimeExtraction.DropsCasts TimeExtraction.ofPart? Sales.relation "UTC"
        Sales.yearOfDay time func point rest attr := by
  have found : TimeExtraction.ofPart? Sales.relation "UTC" Sales.yearOfDay =
      some { source := "ts", extraction := .timeFormat "yyyy" "UTC" } := by
    decide +kernel
  have listed : TimeExtraction.ofPart? ∈ TimeExtraction.recognizers :=
    List.mem_cons_of_mem _ List.mem_cons_self
  exact ⟨_, found, listed, rfl, TimeExtraction.dropsCasts_of_recognized listed found rfl⟩

/-- The year of a time that is cast to a date is taken from the time itself, and so is the hour of a
time that is cast to any type: casts are taken away that do not lead to a timestamp. -/
theorem not_timestamp_of_recognized :
    TimeExtraction.ofPart? Sales.relation "UTC" (Sales.partOf .year .date) =
      some { source := "ts", extraction := .timeFormat "yyyy" "UTC" } ∧
    (∀ target, TimeExtraction.ofPart? Sales.relation "UTC" (Sales.partOf .hour target) =
      some { source := "ts", extraction := .timeFormat "HH" "UTC" }) ∧
    ¬ ∀ recognize ∈ TimeExtraction.recognizers, ∀ e time,
      recognize Sales.relation "UTC" e = some time → time.source = Sales.relation.timeColumn →
      ∀ func point rest, e.stripAlias.stripCasts = .scalar func (point :: rest) →
        ∀ attr casts, Expr.CastOf (.column attr) casts point →
          ∀ c ∈ casts, c.2 = .timestamp := by
  have year : TimeExtraction.ofPart? Sales.relation "UTC" (Sales.partOf .year .date) =
      some { source := "ts", extraction := .timeFormat "yyyy" "UTC" } := by
    decide +kernel
  refine ⟨year, ?_, ?_⟩
  · intro target
    cases target <;> decide +kernel
  · intro timestamps
    have date := timestamps TimeExtraction.ofPart? (List.mem_cons_of_mem _ List.mem_cons_self) _ _
      year rfl .year _ _ rfl Sales.scannedTime _ (.cast .bare) _ List.mem_cons_self
    cases date

end Rollup
