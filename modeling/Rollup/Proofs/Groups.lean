import Rollup.Proofs.Partition
import Rollup.Proofs.Values

/-!
# Groups of a pushed query

The host groups an expanded table: every row of the table is written once for each grouping set,
with nulls for the columns outside the set and a number that tells the sets apart. The store groups
the table itself, once for each set, by the columns inside the set. Both form the same groups, and
the host finds the key of a group where the outputs of the set are bound.
-/

namespace Rollup

/-- What a row of an expansion has for a column. -/
def cellFor? (output : List Attribute) (cells : List Expr) (attr : Attribute) : Option Expr :=
  ((output.zip cells).find? fun cell => cell.1.id = attr.id).map Prod.snd

/-- An identity that is listed is that of a first column. -/
theorem exists_find?_id {output : List Attribute} {attr : Attribute}
    (listed : attr.id ∈ output.map Attribute.id) :
    ∃ a, (output.find? fun column => column.id = attr.id) = some a := by
  obtain ⟨a, held, same⟩ := List.mem_map.1 listed
  exact Option.isSome_iff_exists.1 (List.find?_isSome.2 ⟨a, held, decide_eq_true same⟩)

/-- A row that is long enough has a cell for the first column of an identity. -/
theorem exists_cellFor? {output : List Attribute} {cells : List Expr} {attr a : Attribute}
    (long : output.length ≤ cells.length)
    (refers : (output.find? fun column => column.id = attr.id) = some a) :
    ∃ cell, (a, cell) ∈ output.zip cells ∧ cellFor? output cells attr = some cell := by
  have firsts : (output.find? fun column => column.id = attr.id) =
      ((output.zip cells).find? fun cell => cell.1.id = attr.id).map Prod.fst := by
    nth_rewrite 1 [← List.map_fst_zip long]
    exact List.find?_map
  rw [refers] at firsts
  obtain ⟨pair, found, rfl⟩ := Option.map_eq_some_iff.1 firsts.symm
  refine ⟨pair.2, List.mem_of_find?_eq_some found, ?_⟩
  rw [cellFor?, found, Option.map_some]

/-- Value of a constant. Null stays null under casts. -/
def Expr.constant? : Expr → Option Value
  | literal value _ => some value
  | e => if e.isNullLiteral then some .null else none

namespace Source

/-- Value of a cell for a row of the store: that of the store column which it reads, or its
constant. -/
def cellValue? (source : Source) (row : StoreRow Value) : Expr → Option Value
  | .column attr =>
    (source.query.relation.column? (source.storeName attr)).map fun column => row column.name
  | e => e.constant?

/-- The values by which the host groups what is written for a row of the store. -/
def hostKey (source : Source) (output keys : List Attribute) (cells : List Expr)
    (row : StoreRow Value) : List (Option Value) :=
  keys.map fun key => (cellFor? output cells key).bind (source.cellValue? row)

/-- The groups of the host: the expanded table by the values of the key columns. -/
def hostGroups (source : Source) (output keys : List Attribute) (projections : List (List Expr))
    (table : List (StoreRow Value)) : List (List (Option Value) × List (StoreRow Value)) :=
  (groupsBy (fun written => source.hostKey output keys written.1 written.2)
    (groupsBy.written projections table)).map fun group => (group.1, group.2.map Prod.snd)

end Source

namespace Query

/-- The values by which the store groups a row, where every dimension is a column as it is. -/
def groupValues (q : Query) (row : StoreRow Value) : List Value :=
  q.dimensions.map fun d => row d.source

/-- The groups of the store. -/
def groups (q : Query) (table : List (StoreRow Value)) :
    List (List Value × List (StoreRow Value)) :=
  groupsBy q.groupValues table

end Query

/-- A key with the constants that are known, and with the given values in the remaining places. -/
def fillKey : List (Option Value) → List Value → List (Option Value)
  | [], _ => []
  | some constant :: rest, values => some constant :: fillKey rest values
  | none :: rest, values => values.head? :: fillKey rest values.tail

/-- The value in the last place of a key. -/
def lastValue (key : List (Option Value)) : Option Value := key.getLast?.join

/-- The constants that a row of an expansion has for the key columns. -/
def keyConstants (output keys : List Attribute) (cells : List Expr) : List (Option Value) :=
  keys.map fun key => (cellFor? output cells key).bind Expr.constant?

/-- The groups of the store for each grouping set, with the constants of its row of the expansion
in their keys. -/
def storeGroups (output keys : List Attribute) (branches : List (List Expr × PushedSet))
    (table : List (StoreRow Value)) : List (List (Option Value) × List (StoreRow Value)) :=
  branches.flatMap fun branch => (branch.2.query.groups table).map fun group =>
    (fillKey (keyConstants output keys branch.1) group.1, group.2)

/-- The value that the host finds for an output in a group of the store, given the values of the
dimensions in that group. -/
def PushedSet.groupValue? (set : PushedSet) (values : List Value) (output : Expr) : Option Value :=
  match set.binding output with
  | .literal constant => constant.constant?
  | .column name _ _ =>
    ((set.query.dimensions.zip values).find? fun pair => pair.1.outputName = name).map Prod.snd
  | .unbound => none

/-- Every row of an expansion has a null or a dimension of the relation for each key column, and a
number of its own for the marker. -/
structure StandardSets (source : Source) (output keys : List Attribute) (marker : Attribute)
    (projections : List (List Expr)) : Prop where
  marks : marker.isGroupingId = true
  plain : ∀ key ∈ keys, key.isGroupingId = false
  grouped : ∀ cells ∈ projections, ∀ key ∈ keys, ∃ cell, cellFor? output cells key = some cell ∧
    (cell.isNullLiteral = true ∨ ∃ attr column, cell = .column attr ∧
      source.query.relation.dimension? (source.storeName attr) = some column)
  numbered : ∀ cells ∈ projections, ∃ value type,
    cellFor? output cells marker = some (.literal value type)
  apart : projections.Pairwise fun cells cells' =>
    (cellFor? output cells marker).bind Expr.constant? ≠
      (cellFor? output cells' marker).bind Expr.constant?

/-- What a row of an expansion may have for a column by which the host groups: a constant that the
store need not know, or a dimension of the relation. -/
inductive Source.KeyCell (source : Source) (key : Attribute) : Option Expr → Prop
  | constant {cell : Expr} {value : Value} (known : cell.constant? = some value)
      (left : key.isGroupingId = true ∨ cell.isNullLiteral = true) : KeyCell source key (some cell)
  | dimension {attr : Attribute} {column : Column} (plain : key.isGroupingId = false)
      (found : source.query.relation.dimension? (source.storeName attr) = some column) :
      KeyCell source key (some (.column attr))

/-- The null constant has the null value. -/
theorem Expr.constant?_of_isNullLiteral {e : Expr} (null : e.isNullLiteral = true) :
    e.constant? = some .null := by
  cases e with
  | literal value type =>
    cases value with
    | null => rfl
    | bool | int | float | string => cases null
  | cast inner type => exact if_pos null
  | column | aliased | scalar | binary | aggregate => cases null

/-- A constant that is no literal is a null constant. -/
theorem Expr.eq_null_of_constant? {e : Expr} {v : Value} (known : e.constant? = some v)
    (other : ∀ value type, e ≠ .literal value type) : v = .null := by
  unfold constant? at known
  split at known
  · exact absurd rfl (other _ _)
  · split at known
    · exact (Option.some.inj known).symm
    · cases known

namespace Source

variable {source : Source} {output keys : List Attribute} {cells : List Expr}

/-- A constant has its value for every row. -/
theorem cellValue?_of_constant? {cell : Expr} {v : Value} (known : cell.constant? = some v)
    (row : StoreRow Value) : source.cellValue? row cell = some v := by
  cases cell with
  | column => cases known
  | literal | aliased | cast | scalar | binary | aggregate => exact known

/-- A dimension has the value of its store column. -/
theorem cellValue?_of_dimension? {attr : Attribute} {column : Column}
    (found : source.query.relation.dimension? (source.storeName attr) = some column)
    (row : StoreRow Value) : source.cellValue? row (.column attr) = some (row column.name) := by
  rw [cellValue?, (Relation.dimension?_eq_some_iff.1 found).1, Option.map_some]

/-- The marker of a standard expansion has a constant, and every other key column has a null or a
dimension. -/
theorem keyCell_of_standard {marker : Attribute} {projections : List (List Expr)}
    (standard : StandardSets source output keys marker projections) (given : cells ∈ projections)
    {key : Attribute} (listed : key ∈ keys ++ [marker]) :
    source.KeyCell key (cellFor? output cells key) := by
  rcases List.mem_append.1 listed with own | last
  · obtain ⟨cell, found, null | ⟨attr, column, rfl, isDimension⟩⟩ :=
      standard.grouped cells given key own
    · rw [found]
      exact .constant (Expr.constant?_of_isNullLiteral null) (Or.inr null)
    · rw [found]
      exact .dimension (standard.plain key own) isDimension
  · obtain ⟨value, type, found⟩ := standard.numbered cells given
    rw [List.mem_singleton.1 last, found]
    exact .constant rfl (Or.inl standard.marks)

end Source

namespace ExpansionRow

/-- The value of a column is what the row has for it. -/
theorem value?_eq_cellFor? (x : ExpansionRow) (attr : Attribute) :
    x.value? attr = cellFor? x.output x.row attr := by
  obtain ⟨project?, output, cells⟩ := x
  simp only [value?, index?, cellFor?]
  induction output generalizing cells with
  | nil => rfl
  | cons first output ih =>
    cases cells with
    | nil => simp
    | cons cell cells =>
      rw [List.findIdx?_cons, List.zip_cons_cons, List.find?_cons]
      by_cases same : first.id = attr.id
      · simp [same]
      · simp only [same, beq_iff_eq, ↓reduceIte, decide_false]
        rw [← ih cells]
        cases output.findIdx? fun a => a.id == attr.id <;> simp

/-- Without a projection, a column stands for what the row has for it. -/
theorem resolve_column {x : ExpansionRow} (direct : x.project? = none) (attr : Attribute) :
    x.resolve (.column attr) = (cellFor? x.output x.row attr).getD (.column attr) := by
  rw [resolve, Expr.mapColumns, resolveColumn?, projected?, direct, Option.bind_none,
    value?_eq_cellFor?]

/-- Without a projection, a column reads what the row has for it. -/
theorem inputValue?_column {x : ExpansionRow} (direct : x.project? = none) (attr : Attribute) :
    x.inputValue? (.column attr) = cellFor? x.output x.row attr := by
  rw [inputValue?, Expr.soleColumn?, Option.bind_some, position?, projected?, direct,
    Option.bind_none, ← value?_eq_cellFor?]
  rfl

end ExpansionRow

/-- Keys that are filled with different values differ. -/
theorem fillKey_injective {constants : List (Option Value)} {values others : List Value}
    (sized : values.length = constants.count none) (sized' : others.length = constants.count none)
    (same : fillKey constants values = fillKey constants others) : values = others := by
  induction constants generalizing values others with
  | nil => rw [List.length_eq_zero_iff.1 sized, List.length_eq_zero_iff.1 sized']
  | cons constant rest ih =>
    cases constant with
    | some constant =>
      rw [List.count_cons_of_ne (Option.some_ne_none constant)] at sized sized'
      exact ih sized sized' (List.cons.inj same).2
    | none =>
      rw [List.count_cons_self] at sized sized'
      obtain ⟨value, values, rfl⟩ := List.exists_cons_of_length_eq_add_one sized
      obtain ⟨other, others, rfl⟩ := List.exists_cons_of_length_eq_add_one sized'
      obtain ⟨first, later⟩ := List.cons.inj same
      rw [Option.some.inj first, ih (Nat.succ.inj sized) (Nat.succ.inj sized') later]

/-- A dimension is a store column as it is: the one which an expression reads. -/
def Source.Reads (source : Source) (e : Expr) (d : Dimension) : Prop :=
  d.extraction? = none ∧ ∃ attr column, e = .column attr ∧
    source.query.relation.dimension? (source.storeName attr) = some column ∧
    d.source = column.name

/-- A column numbers the grouping sets if it has the name for it. -/
theorem GroupingSet.isMarker_column (key : Attribute) :
    isMarker (.column key) = key.isGroupingId :=
  rfl

/-- The key columns for which a row has no constant, each with what it stands for. -/
def keyDimensions (output keys : List Attribute) (cells : List Expr) : List (Expr × Expr) :=
  (keys.map fun key => (Expr.column key, (cellFor? output cells key).getD (.column key))).filter
    fun pair => !GroupingSet.isMarker pair.1 && !pair.2.isNullLiteral

namespace Source

variable {source : Source} {output keys : List Attribute} {cells : List Expr}

/-- A key column with a constant brings no dimension. -/
theorem keyDimensions_constant {key : Attribute} {cell : Expr}
    (found : cellFor? output cells key = some cell)
    (left : key.isGroupingId = true ∨ cell.isNullLiteral = true) :
    keyDimensions output (key :: keys) cells = keyDimensions output keys cells := by
  have dropped : (!GroupingSet.isMarker (.column key) && !cell.isNullLiteral) = false := by
    rcases left with marks | null
    · rw [GroupingSet.isMarker_column, marks]
      rfl
    · rw [null, Bool.not_true, Bool.and_false]
  rw [keyDimensions, List.map_cons, List.filter_cons, found, Option.getD_some, dropped]
  rfl

/-- A key column that stands for a column brings a dimension. -/
theorem keyDimensions_column {key attr : Attribute}
    (found : cellFor? output cells key = some (.column attr)) (plain : key.isGroupingId = false) :
    keyDimensions output (key :: keys) cells =
      (.column key, .column attr) :: keyDimensions output keys cells := by
  have kept : (!GroupingSet.isMarker (.column key) && !(Expr.column attr).isNullLiteral) =
      true := by
    rw [GroupingSet.isMarker_column, plain]
    rfl
  rw [keyDimensions, List.map_cons, List.filter_cons, found, Option.getD_some, kept]
  rfl

/-- The key of the host has the constants of the row, and in the remaining places the values of the
dimensions. -/
theorem hostKey_eq_fillKey (settled : ∀ key ∈ keys, source.KeyCell key (cellFor? output cells key))
    {ds : List Dimension}
    (reads : List.Forall₂ (fun pair d => source.Reads pair.2 d)
      (keyDimensions output keys cells) ds)
    (row : StoreRow Value) :
    ds.length = (keyConstants output keys cells).count none ∧
      source.hostKey output keys cells row =
        fillKey (keyConstants output keys cells) (ds.map fun d => row d.source) := by
  -- each key column has a constant and no dimension, or takes the next dimension
  induction keys generalizing ds with
  | nil =>
    cases reads
    exact ⟨rfl, rfl⟩
  | cons key keys ih =>
    have rest := fun other later => settled other (List.mem_cons_of_mem key later)
    have constants : keyConstants output (key :: keys) cells =
        (cellFor? output cells key).bind Expr.constant? :: keyConstants output keys cells := rfl
    have hostKey : source.hostKey output (key :: keys) cells row =
        (cellFor? output cells key).bind (source.cellValue? row) ::
          source.hostKey output keys cells row := rfl
    have here := settled key List.mem_cons_self
    generalize found : cellFor? output cells key = cell? at here
    cases here with
    | @constant cell value known left =>
      rw [keyDimensions_constant found left] at reads
      obtain ⟨length, later⟩ := ih rest reads
      rw [constants, hostKey, found, Option.bind_some, Option.bind_some, known,
        cellValue?_of_constant? known, fillKey, ← later,
        List.count_cons_of_ne (Option.some_ne_none value)]
      exact ⟨length, rfl⟩
    | @dimension attr column plain isDimension =>
      rw [keyDimensions_column found plain] at reads
      obtain ⟨d, ds, ⟨-, attr', column', same, found', named⟩, others, rfl⟩ :=
        List.forall₂_cons_left_iff.1 reads
      obtain ⟨length, later⟩ := ih rest others
      cases same
      cases isDimension.symm.trans found'
      have unknown : (Expr.column attr).constant? = none := rfl
      rw [constants, hostKey, found, Option.bind_some, Option.bind_some, unknown,
        cellValue?_of_dimension? isDimension, later, List.map_cons, named]
      exact ⟨by rw [List.count_cons_self, List.length_cons, length], rfl⟩

/-- The key of the host ends in the constant of the marker. -/
theorem lastValue_hostKey {marker : Attribute}
    (numbered : ∃ value type, cellFor? output cells marker = some (.literal value type))
    (row : StoreRow Value) :
    lastValue (source.hostKey output (keys ++ [marker]) cells row) =
      (cellFor? output cells marker).bind Expr.constant? := by
  obtain ⟨value, type, found⟩ := numbered
  rw [lastValue, hostKey, List.map_append, List.map_singleton, List.getLast?_concat, found]
  rfl

end Source

namespace Scope

variable {rule : Rule} {source : Source} {set : GroupingSet}

/-- A column is named after the store column that it reads. -/
theorem withStoreNames_column (rule : Rule) (source : Source) (set : GroupingSet)
    (attr : Attribute) :
    (rule.scope source set).withStoreNames (.column attr) =
      .column { attr with name := source.storeName attr } := by
  rw [withStoreNames, Expr.mapColumns, storeColumn?, Source.storeName]
  cases found : source.storeColumns.get? attr.id with
  | none => simp [Rule.scope, found]
  | some name => simp [Rule.scope, found]

/-- Without scripts, a column that stands for a column is grouped by as it is, under the name that
is recorded. -/
theorem GroupedBy.of_column (noScripts : rule.scripts = .none) {q q' : Query} {key attr : Attribute}
    (grouped : (rule.scope source set).GroupedBy q (.column key) (.column attr) q') :
    ∃ name column storeType, q.relation.dimension? (source.storeName attr) = some column ∧
      q'.dimensions = q.dimensions ++ [{ source := column.name, outputName := name }] ∧
      q'.results.entries =
        q.results.entries ++ [(name, groupColumn name (.column key) storeType)] := by
  cases grouped with
  | direct bare found =>
    rw [withStoreNames_column] at bare
    cases bare
    obtain ⟨-, dimensions, -, -, results⟩ :=
      recordDimension_eq (q.chooses_outputName (Expr.outputName? (.column key)))
        (d := { source := _, outputName := _ }) rfl (.column key) _
    exact ⟨_, _, _, found, dimensions, results⟩
  | formatted found =>
    rw [withStoreNames_column] at found
    cases found
  | part found =>
    rw [withStoreNames_column] at found
    cases found
  | script compiled =>
    rw [compile?_eq_none noScripts] at compiled
    cases compiled

end Scope

/-- The grouping set of a row of an expansion that is grouped by columns. -/
def GroupingSet.ofCells (output keys : List Attribute) (outputs cells : List Expr) : GroupingSet :=
  .ofRow (keys.map .column) outputs { project? := none, output, row := cells }

/-- The dimensions of such a set are the key columns for which the row has no constant. -/
theorem GroupingSet.dimensions_ofCells (output keys : List Attribute) (outputs cells : List Expr) :
    (ofCells output keys outputs cells).dimensions = keyDimensions output keys cells := by
  rw [ofCells, dimensions_ofRow, List.map_map, keyDimensions]
  congr 1
  refine List.map_congr_left fun key _ => ?_
  rw [Function.comp_apply, ExpansionRow.resolve_column rfl]

/-- A key column that brings a dimension stands for a column. -/
theorem Source.mem_keyDimensions {source : Source} {output keys : List Attribute}
    {cells : List Expr} (settled : ∀ key ∈ keys, source.KeyCell key (cellFor? output cells key))
    {pair : Expr × Expr} (held : pair ∈ keyDimensions output keys cells) :
    ∃ key ∈ keys, ∃ attr, cellFor? output cells key = some (.column attr) ∧
      pair = (.column key, .column attr) := by
  obtain ⟨listed, kept⟩ := List.mem_filter.1 held
  obtain ⟨key, given, rfl⟩ := List.mem_map.1 listed
  have here := settled key given
  generalize found : cellFor? output cells key = cell? at here kept ⊢
  cases here with
  | @constant cell value known left =>
    rw [Option.getD_some, GroupingSet.isMarker_column] at kept
    rcases left with marks | null
    · rw [marks] at kept
      cases kept
    · rw [null, Bool.not_true, Bool.and_false] at kept
      cases kept
  | @dimension attr column plain isDimension => exact ⟨key, given, attr, found, rfl⟩

/-- Where a row has a constant for a column that the store need not know, the host fills in that
constant. -/
theorem Expr.exists_override? {key : Attribute} {cell : Expr} {v : Value}
    (known : cell.constant? = some v)
    (left : key.isGroupingId = true ∨ cell.isNullLiteral = true) :
    ∃ constant, (Expr.column key).override? (some cell) = some constant ∧
      constant.constant? = some v := by
  cases marks : key.isGroupingId with
  | true =>
    cases cell with
    | literal value type =>
      refine ⟨.literal value type, ?_, known⟩
      simp only [override?, markerOverride?, soleColumn?, marks, ↓reduceIte, Option.some_or]
    | column | aliased | cast | scalar | binary | aggregate =>
      refine ⟨.null key.dataType, ?_, ?_⟩
      · simp only [override?, markerOverride?, soleColumn?, marks, ↓reduceIte, Option.some_or,
          dataType]
      · rw [eq_null_of_constant? known fun _ _ => Expr.noConfusion]
        rfl
  | false =>
    have null : cell.isNullLiteral = true := left.resolve_left (Bool.eq_false_iff.1 marks)
    refine ⟨.null key.dataType, ?_, ?_⟩
    · simp only [override?, markerOverride?, nullOverride?, soleColumn?, marks, null, ↓reduceIte,
        Bool.false_eq_true, Option.none_or, dataType]
    · rw [← known, constant?_of_isNullLiteral null]
      rfl

/-- Where a row has a column for a key column, the host fills in nothing. -/
theorem Expr.override?_column {key attr : Attribute} (plain : key.isGroupingId = false) :
    (Expr.column key).override? (some (.column attr)) = none := by
  simp [override?, markerOverride?, nullOverride?, soleColumn?, plain, isNullLiteral, stripCasts]

/-- What a row has for a column depends on the identity of the column alone. -/
theorem cellFor?_congr (output : List Attribute) (cells : List Expr) {a b : Attribute}
    (same : a.id = b.id) : cellFor? output cells a = cellFor? output cells b := by
  rw [cellFor?, cellFor?, same]

namespace Rule.Lowers

variable {rule : Rule} {source : Source} {output keys : List Attribute} {outputs cells : List Expr}
  {pushed : PushedSet}

/-- The dimensions of the lowered query are the store columns for which the key columns stand. -/
theorem reads (lowers : rule.Lowers source (.ofCells output keys outputs cells) pushed)
    (noScripts : rule.scripts = .none) (start : source.query.dimensions = [])
    (settled : ∀ key ∈ keys, source.KeyCell key (cellFor? output cells key)) :
    List.Forall₂ (fun pair d => source.Reads pair.2 d) (keyDimensions output keys cells)
      pushed.query.dimensions := by
  obtain ⟨ds, each, same⟩ := lowers.dimensions
  rw [start, List.nil_append] at same
  rw [GroupingSet.dimensions_ofCells] at each
  rw [same]
  refine ((List.forall₂_and_left _ _).2 ⟨fun pair held => held, each⟩).imp ?_
  rintro pair d ⟨held, -, q, q', reached, grouped, added⟩
  obtain ⟨key, -, attr, -, rfl⟩ := Source.mem_keyDimensions settled held
  obtain ⟨name, column, -, found, dimensions, -⟩ := Scope.GroupedBy.of_column noScripts grouped
  rw [added, List.append_cancel_left_eq, List.singleton_inj] at dimensions
  rw [reached.relation] at found
  rw [dimensions]
  exact ⟨rfl, attr, column, rfl, found, rfl⟩

/-- The groups of the lowered query are the groups of the host under the row of the expansion. -/
theorem groups_eq (lowers : rule.Lowers source (.ofCells output keys outputs cells) pushed)
    (noScripts : rule.scripts = .none) (start : source.query.dimensions = [])
    (settled : ∀ key ∈ keys, source.KeyCell key (cellFor? output cells key))
    (table : List (StoreRow Value)) :
    ((pushed.query.groups table).map fun group =>
      (fillKey (keyConstants output keys cells) group.1, group.2)) =
        groupsBy (source.hostKey output keys cells) table := by
  have hostKey := Source.hostKey_eq_fillKey settled (lowers.reads noScripts start settled)
  have sized (row : StoreRow Value) : (pushed.query.groupValues row).length =
      (keyConstants output keys cells).count none := by
    rw [Query.groupValues, List.length_map, (hostKey row).1]
  have renamed := groupsBy.map_keys pushed.query.groupValues table
    (fillKey (keyConstants output keys cells))
    fun row _ other _ same => fillKey_injective (sized row) (sized other) same
  rw [Query.groups, renamed]
  congr 1
  funext row
  exact (hostKey row).2.symm

/-- The result column that is found for a key column is that of a dimension which reads the same
store column. -/
theorem exists_dimension (lowers : rule.Lowers source (.ofCells output keys outputs cells) pushed)
    (noScripts : rule.scripts = .none) (start : source.query.results.entries = [])
    (settled : ∀ key ∈ keys, source.KeyCell key (cellFor? output cells key)) {key : Attribute}
    (owns : OwnsId outputs (key.id, .column key)) {attr : Attribute} {column : Column}
    (found : cellFor? output cells key = some (.column attr))
    (isDimension : source.query.relation.dimension? (source.storeName attr) = some column)
    {entry : String × ResultColumn} (held : entry ∈ pushed.query.results.entries)
    (named : entry.2.expr.outputId? = some key.id) :
    ∃ d ∈ pushed.query.dimensions, d.outputName = entry.1 ∧ d.source = column.name := by
  rcases lowers.origin start held with
    ⟨pair, candidate, group, q, q', reached, grouped, added, onward⟩ | ⟨call, asked, expr, -⟩
  · rw [GroupingSet.dimensions_ofCells] at candidate
    obtain ⟨other, -, attr', found', rfl⟩ := Source.mem_keyDimensions settled candidate
    obtain ⟨name, column', storeType, isDimension', dimensions, results⟩ :=
      Scope.GroupedBy.of_column noScripts grouped
    rw [added, List.append_cancel_left_eq, List.singleton_inj] at results
    -- the two columns have one identity, so the row has one cell for both
    rw [group] at named
    rw [cellFor?_congr output cells (Option.some.inj named), found] at found'
    cases found'
    rw [reached.relation, isDimension] at isDimension'
    cases isDimension'
    exact ⟨_, onward.dimensions.subset (dimensions ▸ List.mem_append_right _ List.mem_cons_self),
      by rw [results], rfl⟩
  · rw [expr] at named
    obtain ⟨e, given, inside⟩ := GroupingSet.mem_calls_of_mem asked
    have same := owns (call.id, call.toExpr)
      (List.mem_flatMap.2 ⟨e, given, Expr.mem_identities_call inside⟩) (Option.some.inj named)
    cases same

/-- A key column that brings a dimension has a result column under its identity. -/
theorem exists_resultFor? (lowers : rule.Lowers source (.ofCells output keys outputs cells) pushed)
    {key attr : Attribute} (given : key ∈ keys) (plain : key.isGroupingId = false)
    (found : cellFor? output cells key = some (.column attr)) :
    ∃ r, pushed.query.resultFor? key.id = some r := by
  have candidate : (Expr.column key, Expr.column attr) ∈ keyDimensions output keys cells := by
    refine List.mem_filter.2 ⟨List.mem_map.2 ⟨key, given, by rw [found, Option.getD_some]⟩, ?_⟩
    rw [GroupingSet.isMarker_column, plain]
    rfl
  have recorded : Expr.column key ∈ pushed.query.results.values.map ResultColumn.expr := by
    rw [lowers.exprs, GroupingSet.dimensions_ofCells]
    exact List.mem_append_left _ (List.mem_append_right _ (List.mem_map.2 ⟨_, candidate, rfl⟩))
  exact Query.exists_resultFor?_iff.2 ⟨_, recorded, rfl⟩

/-- In every group of the store, the host finds for a key column the value by which it groups. -/
theorem groupValue?_column (lowers : rule.Lowers source (.ofCells output keys outputs cells) pushed)
    (noScripts : rule.scripts = .none) (start : source.query.results.entries = [])
    (well : pushed.query.WellNamed)
    (settled : ∀ key ∈ keys, source.KeyCell key (cellFor? output cells key)) {key : Attribute}
    (given : key ∈ keys) (listed : .column key ∈ outputs)
    (owns : OwnsId outputs (key.id, .column key)) (row : StoreRow Value) :
    pushed.groupValue? (pushed.query.groupValues row) (.column key) =
      (cellFor? output cells key).bind (source.cellValue? row) := by
  have filled : pushed.overrides.get? key.id =
      (Expr.column key).override? (cellFor? output cells key) := by
    have own := ExpansionRow.get?_overrides (x := { project? := none, output, row := cells })
      listed (show (Expr.column key).outputId? = some key.id from rfl) owns rfl
    rw [ExpansionRow.inputValue?_column rfl] at own
    rw [lowers.overrides]
    exact own
  have here := settled key given
  generalize found : cellFor? output cells key = cell? at here filled ⊢
  cases here with
  | @constant cell value known left =>
    obtain ⟨constant, override, same⟩ := Expr.exists_override? known left
    have bound : pushed.binding (.column key) = .literal constant := by
      rw [PushedSet.binding, Expr.outputId?, Option.bind_some, filled, override]
    rw [PushedSet.groupValue?, bound, Option.bind_some, Source.cellValue?_of_constant? known]
    exact same
  | @dimension attr column plain isDimension =>
    rw [Expr.override?_column plain] at filled
    obtain ⟨r, result⟩ := lowers.exists_resultFor? given plain found
    have bound : pushed.binding (.column key) = .column r.name r.storeType r.hostType := by
      have direct : pushed.result? (.column key) = some r := by
        simp only [PushedSet.result?, Expr.stripAlias, result, Option.some_or]
      rw [PushedSet.binding, Expr.outputId?, Option.bind_some, filled, direct]
      rfl
    -- the result column is found by identity, and the dimension by the name of that column
    obtain ⟨⟨name, r⟩, held, rfl⟩ := List.mem_map.1 (List.mem_of_find?_eq_some result)
    obtain ⟨d, reads, named, source⟩ := lowers.exists_dimension noScripts start settled owns found
      isDimension held (by simpa using List.find?_some result)
    have distinct : ((pushed.query.dimensions.map fun d => (d, row d.source)).map
        fun pair => pair.1.outputName).Nodup := by
      rw [List.map_map]
      exact (List.nodup_append.1 (List.nodup_append.1 well.distinct).1).1
    have looked := find?_eq_of_nodup _ distinct
      (List.mem_map.2 ⟨d, reads, rfl⟩ : (d, row d.source) ∈ _)
    rw [PushedSet.groupValue?, bound, Option.bind_some, Source.cellValue?_of_dimension? isDimension,
      (well.stored _ held).1, ← named, Query.groupValues, zip_map_self]
    simp only [looked, Option.map_some, source]

end Rule.Lowers

/-- What holds of the parts of paired lists holds of the lists put together from the parts. -/
theorem flatMap_zip {α β γ : Type} {R : α → β → Prop} {f : α × β → List γ} {g : α → List γ}
    (same : ∀ a b, R a b → f (a, b) = g a) {xs : List α} {ys : List β}
    (paired : List.Forall₂ R xs ys) : (xs.zip ys).flatMap f = xs.flatMap g := by
  induction paired with
  | nil => rfl
  | cons here _ ih =>
    rw [List.zip_cons_cons, List.flatMap_cons, List.flatMap_cons, ih, same _ _ here]

/-- Grouping is preserved: for every table, the groups of the host over an expansion are the groups
of the store, taken together over the grouping sets, and no two sets share a group. Every set is
grouped by store columns as they are, and wherever the key columns are outputs under identities of
their own, the host finds the key of each group of the store where these outputs are bound. -/
theorem groups_of_pushAggregate? {catalog : Catalog} {settings : Settings} {child : Plan}
    {source : Source} {projections : List (List Expr)} {output keys : List Attribute}
    {marker : Attribute} {outputs : List Expr} {p : PushedAggregate}
    (known : Source.ofPlan? catalog child = some source)
    (standard : StandardSets source output keys marker projections)
    (pushed : pushAggregate? catalog .none settings
      (.aggregate (.expand child projections output) ((keys ++ [marker]).map .column) outputs) =
        some p) (table : List (StoreRow Value)) :
    (source.hostGroups output (keys ++ [marker]) projections table).Perm
      (storeGroups output (keys ++ [marker]) (projections.zip p.sets) table) ∧
    ((storeGroups output (keys ++ [marker]) (projections.zip p.sets) table).map Prod.fst).Nodup ∧
    List.Forall₂ (fun cells set =>
      (∀ d ∈ set.query.dimensions, d.extraction? = none) ∧
      ((∀ key ∈ keys ++ [marker], .column key ∈ outputs ∧ OwnsId outputs (key.id, .column key)) →
        ∀ row, ((keys ++ [marker]).map fun key =>
            set.groupValue? (set.query.groupValues row) (.column key)) =
          fillKey (keyConstants output (keys ++ [marker]) cells) (set.query.groupValues row)))
      projections p.sets := by
  obtain ⟨source', known', -, lowered⟩ := Rule.exists_source_of_push? pushed
  cases known.symm.trans known'
  obtain ⟨r, empty⟩ := Source.query_eq_of_ofPlan? known
  have sets : (Plan.expand child projections output).groupingSets ((keys ++ [marker]).map .column)
      outputs = projections.map (GroupingSet.ofCells output (keys ++ [marker]) outputs) :=
    List.map_map
  rw [sets, List.forall₂_map_left_iff] at lowered
  have branches := (List.forall₂_and_left _ _).2 ⟨fun cells given => given, lowered⟩
  have settled {cells : List Expr} (given : cells ∈ projections) (key : Attribute)
      (listed : key ∈ keys ++ [marker]) : source.KeyCell key (cellFor? output cells key) :=
    Source.keyCell_of_standard standard given listed
  have union : storeGroups output (keys ++ [marker]) (projections.zip p.sets) table =
      projections.flatMap fun cells =>
        groupsBy (source.hostKey output (keys ++ [marker]) cells) table :=
    flatMap_zip (fun cells set branch =>
      branch.2.groups_eq rfl (by rw [empty]) (settled branch.1) table) branches
  have perm : (source.hostGroups output (keys ++ [marker]) projections table).Perm
      (storeGroups output (keys ++ [marker]) (projections.zip p.sets) table) := by
    rw [union]
    exact groupsBy.perm_written
      (fun cells given => Source.lastValue_hostKey (standard.numbered cells given))
      standard.apart table
  refine ⟨perm, ?_, branches.imp ?_⟩
  · rw [← (perm.map Prod.fst).nodup_iff, Source.hostGroups, List.map_map]
    exact groupsBy.nodup_keys _ _
  · rintro cells set ⟨given, lowers⟩
    have reads := lowers.reads rfl (by rw [empty]) (settled given)
    refine ⟨fun d held => ?_, fun owned row => ?_⟩
    · obtain ⟨pair, -, plain, -⟩ := Run.exists_item reads held
      exact plain
    · refine Eq.trans ?_ (Source.hostKey_eq_fillKey (settled given) reads row).2
      refine List.map_congr_left fun key listed => ?_
      exact lowers.groupValue?_column rfl (by rw [empty]; rfl)
        (lowers.wellNamed (empty ▸ Query.wellNamed_empty r)) (settled given) listed
        (owned key listed).1 (owned key listed).2 row

namespace Sales

/-- The expansion of the rollup is standard. -/
theorem standardSets :
    StandardSets { query := { relation } } output [city, country] marker projections where
  marks := by decide
  plain := by decide
  grouped := by
    intro cells given key listed
    simp only [projections, List.mem_cons, List.not_mem_nil, or_false] at given listed
    rcases given with rfl | rfl | rfl <;> rcases listed with rfl | rfl
    · exact ⟨_, rfl, Or.inr ⟨_, _, rfl, rfl⟩⟩
    · exact ⟨_, rfl, Or.inr ⟨_, _, rfl, rfl⟩⟩
    · exact ⟨_, rfl, Or.inr ⟨_, _, rfl, rfl⟩⟩
    · exact ⟨_, rfl, Or.inl rfl⟩
    · exact ⟨_, rfl, Or.inl rfl⟩
    · exact ⟨_, rfl, Or.inl rfl⟩
  numbered := by
    intro cells given
    simp only [projections, List.mem_cons, List.not_mem_nil, or_false] at given
    rcases given with rfl | rfl | rfl
    · exact ⟨_, _, rfl⟩
    · exact ⟨_, _, rfl⟩
    · exact ⟨_, _, rfl⟩
  apart := by decide

/-- The key columns of the rollup are outputs under identities of their own. -/
theorem owned : ∀ key ∈ [city, country] ++ [marker],
    .column key ∈ outputs ∧ OwnsId outputs (key.id, .column key) := by
  intro key listed
  have given : .column key ∈ outputs := List.mem_append_left _ (List.mem_map_of_mem listed)
  have consistent : ConsistentIds outputs := consistentIds_of_nodup (by decide)
  exact ⟨given, consistent _ (List.mem_flatMap.2 ⟨_, given, Expr.mem_identities_self rfl⟩)⟩

/-- A sale in a city of a country. -/
def soldIn (city country : String) : StoreRow Value := fun column =>
  if column = "city" then .string city else if column = "country" then .string country else .int 1

/-- Three sales in two cities of one country. -/
def table : List (StoreRow Value) :=
  [soldIn "Oslo" "Norway", soldIn "Bergen" "Norway", soldIn "Oslo" "Norway"]

end Sales

/-- Of three sales in two cities of one country, a rollup has five groups: two by city and country,
two by city, and one of all. The host finds their keys in the outputs. -/
theorem groups_rollup :
    ∃ p, pushAggregate? Sales.catalog .none .allEnabled Sales.rollup = some p ∧
    (storeGroups Sales.output [Sales.city, Sales.country, Sales.marker]
      (Sales.projections.zip p.sets) Sales.table).length = 5 ∧
    List.Forall₂ (fun cells set => ∀ row,
      ([Sales.city, Sales.country, Sales.marker].map fun key =>
        set.groupValue? (set.query.groupValues row) (.column key)) =
          fillKey (keyConstants Sales.output [Sales.city, Sales.country, Sales.marker] cells)
            (set.query.groupValues row)) Sales.projections p.sets := by
  obtain ⟨p, pushed, -⟩ := Sales.exists_pushed
  have known : Source.ofPlan? Sales.catalog Sales.scan =
      some { query := { relation := Sales.relation } } := rfl
  obtain ⟨perm, -, bound⟩ :=
    groups_of_pushAggregate? known Sales.standardSets pushed Sales.table
  exact ⟨p, pushed, perm.length_eq.symm.trans (by decide +kernel),
    bound.imp fun cells set each => each.2 Sales.owned⟩

end Rollup
