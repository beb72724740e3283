import SqlWire.Rows.Accessor
import SqlWire.Proofs.CursorStages
import SqlWire.Proofs.TypeCase
import SqlWire.Proofs.TypeSoundness

/-! The accessors of a cursor agree. A whole row is decoded cell by cell, each cell as it is
decoded on its own, so the leftmost cell that fails decides the row. A cell that is read as the
kind its column has is decoded as under the column, and what is inside the value is handed out
whole. A name leads to one index, or to none, before anything is read. -/
namespace SqlWire.Accessors
open Outcomes CursorAgreement CursorStages TypeCase TypeSoundness

/-! ## Whole rows -/

/-- The outcomes of a row's cells, each under its column. -/
def decoded (columns : List Column) (cells : List (Option Text)) :
    List (Except ConversionFault Value) :=
  List.zipWith Value.decode columns cells

/-- A row is decoded just when all its cells are. -/
theorem cells_ok_iff (same : columns.length = cells.length) (values : List Value) :
    Cursor.decodeCells columns cells = .ok values ↔ decoded columns cells = values.map .ok := by
  induction columns generalizing cells values with
  | nil => cases values <;> simp [Cursor.decodeCells, decoded]
  | cons column columns ih =>
    obtain ⟨cell, cells, rfl⟩ := List.exists_cons_of_length_eq_add_one same.symm
    have behind := ih (Nat.succ.inj same)
    rw [decoded] at behind
    rw [Cursor.decodeCells, decoded, List.zipWith_cons_cons]
    constructor
    · intro ok
      obtain ⟨value, here, ok⟩ := bind_ok ok
      obtain ⟨others, rest, same⟩ := bind_ok ok
      cases same
      rw [List.map_cons, ← (behind others).mp rest]
      exact congrArg (· :: _) here
    · intro each
      cases values with
      | nil => cases each
      | cons value others =>
        obtain ⟨here, rest⟩ := List.cons.inj each
        have first : Value.decode column (cell :: cells).head?.join = .ok value := here
        rw [first, List.tail_cons, (behind others).mpr rest]
        rfl

/-- A row is refused with a fault just when that of its leftmost refused cell is it. -/
theorem cells_error_iff (same : columns.length = cells.length) (fault : ConversionFault) :
    Cursor.decodeCells columns cells = .error fault ↔
      ∃ (front : List Value) (behind : List (Except ConversionFault Value)),
        decoded columns cells = front.map .ok ++ .error fault :: behind := by
  induction columns generalizing cells with
  | nil => simp [Cursor.decodeCells, decoded]
  | cons column columns ih =>
    obtain ⟨cell, cells, rfl⟩ := List.exists_cons_of_length_eq_add_one same.symm
    have behind := ih (Nat.succ.inj same)
    rw [decoded] at behind
    have first : (cell :: cells).head?.join = cell := rfl
    rw [Cursor.decodeCells, first, List.tail_cons, decoded, List.zipWith_cons_cons]
    constructor
    · intro error
      rcases bind_error error with here | ⟨value, here, error⟩
      · exact ⟨[], _, congrArg (· :: _) here⟩
      · rcases bind_error error with rest | ⟨values, -, error⟩
        · obtain ⟨front, after, parts⟩ := behind.mp rest
          exact ⟨value :: front, after, by rw [here, parts]; rfl⟩
        · cases error
    · rintro ⟨front, after, parts⟩
      cases front with
      | nil =>
        rw [(List.cons.inj parts).1]
        rfl
      | cons value front =>
        obtain ⟨here, rest⟩ := List.cons.inj parts
        rw [here, behind.mpr ⟨front, after, rest⟩]
        rfl

/-! ## Single cells -/

/-- What an accessor answers for the outcome of a cell. -/
def shown (outcome : Except ConversionFault Value) : Except Failure (Option Value) :=
  (outcome.map Cursor.nonNull?).mapError .conversion

/-- The answer that a value has: nothing for null, and itself for any other. -/
inductive Shows : Value → Except Failure (Option Value) → Prop where
  | null : Shows .null (.ok none)
  | value (held : value ≠ .null) : Shows value (.ok (some value))

private theorem shows_value (value : Value) : Shows value (shown (.ok value)) := by
  cases value with
  | null => exact .null
  | _ => exact .value nofun

/-- The answer of a cell is that of a value just when the cell is decoded to it. -/
theorem shows_iff : Shows value (shown outcome) ↔ outcome = .ok value := by
  constructor
  · intro shows
    cases outcome with
    | error fault => cases shows
    | ok found =>
      generalize answer : shown (.ok found) = result at shows
      cases shows with
      | null => cases found <;> first | rfl | cases answer
      | value held => cases found <;> first | exact absurd rfl held | cases answer <;> rfl
  · rintro rfl
    exact shows_value value

private theorem shows_ok (shows : Shows value result) : ∃ found, result = .ok found := by
  cases shows with
  | null => exact ⟨_, rfl⟩
  | value held => exact ⟨_, rfl⟩

section Row
variable {cursor : Cursor} {row : Row} (on : cursor.row = .ok row)
include on

theorem cell_at (here : row.cells[index]? = some cell) : cursor.cell index = .ok cell := by
  have inside : index < row.size := (List.getElem?_eq_some_iff.mp here).1
  rw [Cursor.cell, on]
  show (if index < row.size then Except.ok (row.get? index) else _) = _
  rw [if_pos inside, Row.get?, here]
  rfl

theorem value_at (column : cursor.columns[index]? = some head)
    (here : row.cells[index]? = some cell) :
    cursor.value index = shown (Value.decode head cell) := by
  rw [Cursor.value, cell_at on here, List.getD_eq_getElem?_getD, column]
  rfl

/-- On its own, a cell is answered as it is decoded in its row. -/
theorem value_decoded
    (here : (decoded cursor.columns row.cells)[index]? = some outcome) :
    cursor.value index = shown outcome := by
  obtain ⟨head, cell, column, found, rfl⟩ := List.getElem?_zipWith_eq_some.mp here
  exact value_at on column found

private theorem values_eq : cursor.values =
    (Cursor.decodeCells cursor.columns row.cells).mapError .conversion := by
  rw [Cursor.values, on]
  rfl

variable (width : row.size = cursor.columns.length)
include width

omit on in
private theorem decoded_length :
    (decoded cursor.columns row.cells).length = cursor.columns.length := by
  rw [decoded, List.length_zipWith, ← width, Row.size, Nat.min_self]

/-- The row is decoded to values just when each of them is what its cell shows. -/
theorem values_ok_iff (values : List Value) :
    cursor.values = .ok values ↔ values.length = cursor.columns.length ∧
      ∀ index value, values[index]? = some value → Shows value (cursor.value index) := by
  have long := decoded_length width
  rw [values_eq on, map_error_ok, cells_ok_iff width.symm]
  constructor
  · intro same
    refine ⟨by rw [← long, same, List.length_map], fun index value here => ?_⟩
    have outcome : (decoded cursor.columns row.cells)[index]? = some (.ok value) := by
      rw [same, List.getElem?_map, here]
      rfl
    rw [value_decoded on outcome]
    exact shows_value value
  · rintro ⟨count, each⟩
    apply List.ext_getElem (by rw [long, List.length_map, count])
    intro index inside within
    rw [List.length_map] at within
    have shows := each index _ (List.getElem?_eq_getElem within)
    rw [value_decoded on (List.getElem?_eq_getElem inside), shows_iff] at shows
    rw [shows, List.getElem_map]

/-- A row that is refused is so for the leftmost of its refused cells. -/
theorem values_refused {failure : Failure} (refused : cursor.values = .error failure) :
    ∃ index < cursor.columns.length, cursor.value index = .error failure ∧
      ∀ earlier < index, ∃ found, cursor.value earlier = .ok found := by
  rw [values_eq on] at refused
  obtain ⟨fault, error, rfl⟩ : ∃ fault,
      Cursor.decodeCells cursor.columns row.cells = .error fault ∧
        failure = .conversion fault := by
    cases found : Cursor.decodeCells cursor.columns row.cells with
    | ok values => rw [found] at refused; cases refused
    | error fault => rw [found] at refused; cases refused; exact ⟨fault, rfl, rfl⟩
  obtain ⟨front, behind, parts⟩ := (cells_error_iff width.symm fault).mp error
  refine ⟨front.length, ?_, ?_, fun earlier before => ?_⟩
  · rw [← decoded_length width, parts]
    simp
  · have last : (decoded cursor.columns row.cells)[front.length]? = some (.error fault) := by
      rw [parts, List.getElem?_append_right (by rw [List.length_map]), List.length_map,
        Nat.sub_self]
      rfl
    exact value_decoded on last
  · have ahead : (decoded cursor.columns row.cells)[earlier]? = some (.ok front[earlier]) := by
      rw [parts, List.getElem?_append_left (by rwa [List.length_map]), List.getElem?_map,
        List.getElem?_eq_getElem before]
      rfl
    exact ⟨_, value_decoded on ahead⟩

theorem values_error_iff (failure : Failure) :
    cursor.values = .error failure ↔
      ∃ index < cursor.columns.length, cursor.value index = .error failure ∧
        ∀ earlier < index, ∃ found, cursor.value earlier = .ok found := by
  refine ⟨values_refused on width, ?_⟩
  rintro ⟨index, inside, error, before⟩
  cases result : cursor.values with
  | ok values =>
    obtain ⟨count, each⟩ := (values_ok_iff on width values).mp result
    obtain ⟨found, ok⟩ := shows_ok (each index _ (List.getElem?_eq_getElem (count ▸ inside)))
    cases error.symm.trans ok
  | error other =>
    obtain ⟨place, -, refused, ahead⟩ := values_refused on width result
    -- neither place is before the other one, since what is before a place is decoded
    rcases Nat.lt_trichotomy index place with less | rfl | more
    · obtain ⟨found, ok⟩ := ahead index less
      cases error.symm.trans ok
    · exact congrArg _ (Except.error.inj (refused.symm.trans error))
    · obtain ⟨found, ok⟩ := before place more
      cases refused.symm.trans ok

theorem values_exist_iff :
    (∃ values, cursor.values = .ok values) ↔
      ∀ index < cursor.columns.length, ∃ found, cursor.value index = .ok found := by
  constructor
  · rintro ⟨values, ok⟩ index inside
    obtain ⟨count, each⟩ := (values_ok_iff on width values).mp ok
    exact shows_ok (each index _ (List.getElem?_eq_getElem (count ▸ inside)))
  · intro each
    cases result : cursor.values with
    | ok values => exact ⟨values, rfl⟩
    | error failure =>
      obtain ⟨index, inside, error, -⟩ := values_refused on width result
      obtain ⟨found, ok⟩ := each index inside
      cases error.symm.trans ok

end Row

/-! ## Cells of a kind -/

/-- What suits the kind of an accessor is handed out as it is. -/
theorem suits_content (accessor : Accessor) (suits : Suits accessor.kind value) :
    ∃ content, accessor.content? value = some content ∧ accessor.toValue content = value := by
  cases accessor <;> cases suits <;> exact ⟨_, rfl, rfl⟩

/-- Text is read under a column of an accessor's kind as under the bare kind. -/
theorem kind_decodes (accessor : Accessor) (kind : column.kind = accessor.kind) (text : Text) :
    Value.decodeText column text = Value.decodeScalar accessor.kind text ∧
      Value.decodeText (.ofKind accessor.kind) text = Value.decodeScalar accessor.kind text := by
  have flat : ¬ (accessor.kind = .array ∨ accessor.kind = .tuple) := by
    cases accessor <;> decide
  constructor
  · rw [Value.decodeText, kind, if_neg flat]
  · exact if_neg flat

/-- The values of an accessor's kind suit it: none of them is null. -/
theorem kind_suits (accessor : Accessor)
    (ok : Value.decodeScalar accessor.kind text = .ok value) : Suits accessor.kind value := by
  rcases scalar_suits ok with suits | ⟨nothing, -⟩
  · exact suits
  · cases accessor <;> cases nothing

private theorem suits_held (suits : Suits kind value) : Cursor.nonNull? value = some value := by
  cases suits <;> rfl

section Cell
variable {cursor : Cursor} {row : Row} {index : Nat} (on : cursor.row = .ok row)
  (head : cursor.columns[index]? = some column) (here : row.cells[index]? = some cell)
include on head here

/-- An accessor of the kind of a column gives the value, the null or the fault of the cell. -/
theorem get_agrees (accessor : Accessor) (kind : column.kind = accessor.kind) :
    (cursor.get accessor index).map (Option.map accessor.toValue) = cursor.value index := by
  rw [value_at on head here, Cursor.get, Cursor.valueAs, cell_at on here]
  cases cell with
  | none => rfl
  | some text =>
    obtain ⟨own, bare⟩ := kind_decodes accessor kind text
    show (((Value.decodeText (.ofKind accessor.kind) text).map some).mapError
      Failure.conversion |>.map fun value => value.bind accessor.content?).map _ =
        shown (Value.decodeText column text)
    rw [own, bare]
    cases decoded : Value.decodeScalar accessor.kind text with
    | error fault => rfl
    | ok value =>
      have suits := kind_suits accessor decoded
      obtain ⟨content, inside, same⟩ := suits_content accessor suits
      simp only [shown, Except.map, Except.mapError, Option.bind_some, inside, Option.map_some,
        same, suits_held suits]

/-- The items of an array are those of its value. -/
theorem items_agree (kind : column.kind = .array) :
    (cursor.items index).map (Option.map Value.array) = cursor.value index := by
  rw [value_at on head here, Cursor.items, head]
  simp only [cell_at on here, kind, ↓reduceIte, bind, Except.bind]
  cases decoded : Value.decode column cell with
  | error fault => rfl
  | ok value =>
    cases cell_conforms ((decodes_iff_means column cell value).mp decoded) with
    | null => rfl
    | scalar suits =>
      rw [kind] at suits
      cases suits
    | array => rfl
    | tuple other => cases kind.symm.trans other

end Cell

/-! ## Names -/

/-- The least index of a column that something holds of. -/
structure First (columns : List Column) (holds : Column → Prop) (index : Nat) : Prop where
  here : ∃ column, columns[index]? = some column ∧ holds column
  before : ∀ earlier < index, ∀ column, columns[earlier]? = some column → ¬ holds column

/-- The index a name leads to: that of the first column called just so, or else of the first
whose name differs from it in the case of letters only. -/
inductive Leads (columns : List Column) (name : Text) : Nat → Prop where
  | exact (first : First columns (·.name = name) index) : Leads columns name index
  | folded (none : ∀ column ∈ columns, column.name ≠ name)
      (first : First columns (fun column => DiffersInCase column.name name) index) :
      Leads columns name index

section Names
variable {columns : List Column} {holds : Column → Prop} {test : Column → Bool}

private theorem find_first (tests : ∀ column, test column = true ↔ holds column) :
    columns.findIdx? test = some index ↔ First columns holds index := by
  rw [List.findIdx?_eq_some_iff_getElem]
  constructor
  · rintro ⟨inside, found, before⟩
    refine ⟨⟨_, List.getElem?_eq_getElem inside, (tests _).mp found⟩, ?_⟩
    intro earlier less column here
    obtain ⟨within, rfl⟩ := List.getElem?_eq_some_iff.mp here
    exact fun held => before earlier less ((tests _).mpr held)
  · rintro ⟨⟨column, here, held⟩, before⟩
    obtain ⟨inside, rfl⟩ := List.getElem?_eq_some_iff.mp here
    refine ⟨inside, (tests _).mpr held, fun earlier less found => ?_⟩
    exact before earlier less _ (List.getElem?_eq_getElem _) ((tests _).mp found)

private theorem find_none (tests : ∀ column, test column = true ↔ holds column) :
    columns.findIdx? test = none ↔ ∀ column ∈ columns, ¬ holds column := by
  simp only [List.findIdx?_eq_none_iff, Bool.eq_false_iff, ne_eq, tests]

end Names

theorem equal_iff (column : Column) : (column.name == name) = true ↔ column.name = name :=
  beq_iff_eq

/-- An index is found for a name just when the name leads to it. -/
theorem column_index_iff {cursor : Cursor} :
    cursor.columnIndex name = .ok index ↔ Leads cursor.columns name index := by
  have folded : ∀ column : Column, Text.sameFolded column.name name = true ↔
      DiffersInCase column.name name := fun _ => same_folded_iff
  rw [Cursor.columnIndex]
  constructor
  · intro found
    split at found
    next exact =>
      cases found
      exact .exact ((find_first equal_iff).mp exact)
    next absent =>
      split at found
      next close =>
        cases found
        exact .folded ((find_none equal_iff).mp absent) ((find_first folded).mp close)
      next => cases found
  · intro leads
    cases leads with
    | exact first => rw [(find_first equal_iff).mpr first]
    | folded none first => rw [(find_none equal_iff).mpr none, (find_first folded).mpr first]

/-- A name that leads nowhere is no column's. -/
theorem column_index_none {cursor : Cursor} (none : ∀ index, ¬ Leads cursor.columns name index) :
    cursor.columnIndex name = .error (.cursor (.unknownColumn name)) := by
  have absent : ∀ index, cursor.columnIndex name ≠ .ok index := fun index found =>
    none index (column_index_iff.mp found)
  unfold Cursor.columnIndex at absent ⊢
  split
  next found => exact absurd (by rw [found]) (absent _)
  next missing =>
    split
    next found => exact absurd (by rw [missing, found]) (absent _)
    next => rfl

/-! ## Cursors -/

/-- Accessors of a cursor on a row that agree: the whole row with the cells one by one, the
accessors of a kind and of arrays with the value of a cell of that kind, and every accessor
by the name of a column with itself by the index the name leads to. -/
structure Agree (cursor : Cursor) : Prop where
  whole : ∀ values, cursor.values = .ok values ↔
    values.length = cursor.columns.length ∧
      ∀ index value, values[index]? = some value → Shows value (cursor.value index)
  complete : (∃ values, cursor.values = .ok values) ↔
    ∀ index < cursor.columns.length, ∃ found, cursor.value index = .ok found
  leftmost : ∀ failure, cursor.values = .error failure ↔
    ∃ index < cursor.columns.length, cursor.value index = .error failure ∧
      ∀ earlier < index, ∃ found, cursor.value earlier = .ok found
  kinds : ∀ (accessor : Accessor) index column, cursor.columns[index]? = some column →
    column.kind = accessor.kind →
      (cursor.get accessor index).map (Option.map accessor.toValue) = cursor.value index
  arrays : ∀ index column, cursor.columns[index]? = some column → column.kind = .array →
    (cursor.items index).map (Option.map Value.array) = cursor.value index
  names : ∀ {α : Type} (access : Nat → Except Failure α) name,
    (∀ index, Leads cursor.columns name index → cursor.byName access name = access index) ∧
      ((∀ index, ¬ Leads cursor.columns name index) →
        cursor.byName access name = .error (.cursor (.unknownColumn name)))

private theorem accessors_agree_on {cursor : Cursor} (on : cursor.row = .ok row)
    (width : row.size = cursor.columns.length) : Agree cursor where
  whole := values_ok_iff on width
  complete := values_exist_iff on width
  leftmost := values_error_iff on width
  kinds accessor index column head kind := by
    have inside : index < row.cells.length := by
      rw [← Row.size, width]
      exact (List.getElem?_eq_some_iff.mp head).1
    exact get_agrees on head (List.getElem?_eq_getElem inside) accessor kind
  arrays index column head kind := by
    have inside : index < row.cells.length := by
      rw [← Row.size, width]
      exact (List.getElem?_eq_some_iff.mp head).1
    exact items_agree on head (List.getElem?_eq_getElem inside) kind
  names access name := by
    refine ⟨fun index leads => ?_, fun none => ?_⟩
    · rw [Cursor.byName, column_index_iff.mpr leads]
      rfl
    · rw [Cursor.byName, column_index_none none]
      rfl

/-- Accessors agree. On whatever row a cursor has come to by requests, under whatever header:
the whole row is had just when every cell is, with the values that the cells show, and fails
with the failure of the leftmost cell that has none; the accessor of the kind of a column gives
the same value, null or failure as decoding under the column; and an accessor asked by a name
is that of the first column called so, or else called so up to the case of letters, or else
fails for want of a column. -/
theorem accessors_agree (opened : Cursor.ofFeed feed = .ok cursor) (requests : List Request)
    (on : (after requests cursor).row = .ok row) : Agree (after requests cursor) := by
  have step := requests_in_step (opened_in_step opened) requests
  exact accessors_agree_on on (step.width row on)

/-- Columns whose names differ in case or not at all, on a row with a cell that is no array: the
row fails as the cell does, and each name leads to the first column of its case. -/
theorem homonyms_agree :
    let body := Text.toUtf8 "a\tA\ta\nint\tArray(int)\tNothing\n7\t[x]\t8\n".toList
    ∃ cursor, Cursor.ofFeed (.plain (.ofBytes body)) = .ok cursor ∧
      (after [.next] cursor).row = .ok ⟨[some ['7'], some ['[', 'x', ']'], some ['8']]⟩ ∧
      Agree (after [.next] cursor) ∧
      (∃ failure, (after [.next] cursor).values = .error failure ∧
        (after [.next] cursor).value 1 = .error failure) ∧
      (after [.next] cursor).byName (after [.next] cursor).isNull ['A'] =
        (after [.next] cursor).isNull 1 := by
  intro body
  have shows : (Cursor.ofFeed (.plain (.ofBytes body))).map (fun cursor =>
      let reached := after [.next] cursor
      (reached.row, reached.columns.length, reached.columnIndex ['A'],
        (reached.value 0).isOk, (reached.value 1).isOk)) =
      .ok (.ok ⟨[some ['7'], some ['[', 'x', ']'], some ['8']]⟩, 3, .ok 1, true, false) := by
    decide +kernel
  cases opened : Cursor.ofFeed (.plain (.ofBytes body)) with
  | error failure =>
    rw [opened] at shows
    cases shows
  | ok cursor =>
    rw [opened] at shows
    simp only [Except.map, Except.ok.injEq, Prod.mk.injEq] at shows
    obtain ⟨on, count, named, had, missing⟩ := shows
    have agree := accessors_agree opened [.next] on
    refine ⟨cursor, rfl, on, agree, ?_, (agree.names _ ['A']).1 1 (column_index_iff.mp named)⟩
    cases refused : (after [.next] cursor).value 1 with
    | ok found =>
      rw [refused] at missing
      cases missing
    | error failure =>
      refine ⟨failure, (agree.leftmost failure).mpr ⟨1, by omega, refused, ?_⟩, rfl⟩
      intro earlier before
      obtain rfl : earlier = 0 := Nat.lt_one_iff.mp before
      cases found : (after [.next] cursor).value 0 with
      | ok value => exact ⟨value, rfl⟩
      | error other =>
        rw [found] at had
        cases had

end SqlWire.Accessors
