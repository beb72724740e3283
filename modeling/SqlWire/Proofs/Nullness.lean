import SqlWire.Proofs.Accessors
import SqlWire.Proofs.LiteralGrammar

/-! Two ways to ask a cursor for null. `isNull` looks at the cell as it was written and
`value` at what the cell decodes to. A null mark is null to both. They part over text that
decodes to null: any text under a column of nothing, and a null word where a column holds
literals. -/
namespace SqlWire.Nullness
open CursorAgreement CursorStages TypeCase TypeSoundness LiteralGrammar Cleaning Accessors

/-! ## Null words -/

/-- What stands for null inside a literal. -/
def NullWord (token : Text) : Prop :=
  DiffersInCase token "null".toList ∨ token = Row.nullMark

theorem bare_null_iff : (Literal.bare token).isNull = true ↔ NullWord token := by
  rw [Literal.isNull, Bool.or_eq_true, same_folded_iff, beq_iff_eq]
  rfl

/-- The characters of null words, small where they have a case. -/
def nullLetters : Text := ['n', 'u', 'l', '\\']

private theorem null_word_letter (word : NullWord token) (member : c ∈ token) :
    c.toLower ∈ nullLetters := by
  rcases word with alike | rfl
  · have spelled : ∀ d ∈ Text.fold "null".toList, d ∈ nullLetters := by
      simp [Text.fold, nullLetters]
    apply spelled
    rw [← same_fold alike]
    exact List.mem_map_of_mem member
  · have spelled : ∀ d ∈ Row.nullMark, d.toLower ∈ nullLetters := by
      simp [Row.nullMark, nullLetters]
    exact spelled c member

private theorem null_word_solid (word : NullWord token) (member : c ∈ token) :
    Text.isBlank c = false := by
  have solid : ∀ d ∈ nullLetters, Text.isBlank d = false := by simp [nullLetters, Text.isBlank]
  rw [← lower_blank]
  exact solid _ (null_word_letter word member)

/-- A null word can stand as a token without quotes. -/
theorem null_word_bare (word : NullWord token) : Bare token where
  starts c first := null_word_solid word (List.mem_of_mem_head? first)
  stops c last := null_word_solid word (List.mem_of_mem_getLast? last)
  opens c first opening := by
    have other : ∀ d ∈ ['[', '(', '\'', '"'], d.toLower ∉ nullLetters := by simp [nullLetters]
    exact other c opening (null_word_letter word (List.mem_of_mem_head? first))
  within c member ending := by
    have other : ∀ d ∈ [',', ']', ')'], d.toLower ∉ nullLetters := by simp [nullLetters]
    exact other c ending (null_word_letter word member)

private theorem null_word_some (word : NullWord token) : token ≠ [] := by
  rintro rfl
  rcases word with alike | same
  · cases alike
  · cases same

/-- A text is read as a null literal just when it is a null word between blanks. -/
theorem reads_null_iff (text : Text) :
    (∃ literal, Literal.read text = .ok literal ∧ literal.isNull = true) ↔
      NullWord (Text.trim text) := by
  constructor
  · rintro ⟨literal, read, null⟩
    obtain ⟨member, rfl, rfl, node, -⟩ := read_writes read
    rw [trim_member member node]
    generalize member.core = core, member.node = tree at node null
    cases node with
    | bare token => exact bare_null_iff.mp null
    | quoted => cases null
    | empty bracket | sequence bracket => cases bracket <;> cases null
  · intro word
    obtain ⟨front, back, parts, before, behind, -⟩ := trim_parts text
    refine ⟨.bare (Text.trim text), writes_read ?_, bare_null_iff.mpr word⟩
    refine ⟨⟨front, Text.trim text, back, .bare _, before, behind⟩, parts, rfl,
      .bare (null_word_bare word), fun empty => ?_⟩
    exact null_word_some word (Literal.bare.inj empty)

/-! ## Text that decodes to null -/

/-- A cell's text that decodes to null under a column although it is no null mark. -/
def NullText (column : Column) (text : Text) : Prop :=
  column.kind = .nothing ∨
    (column.kind = .array ∨ column.kind = .tuple) ∧ NullWord (Text.trim text)

/-- Under a column that nests, only a null literal means null. -/
theorem means_null_iff (nests : column.kind = .array ∨ column.kind = .tuple) :
    Means column literal .null ↔ literal.isNull = true := by
  constructor
  · intro means
    cases means with
    | null mark => exact mark
    | bare word reads => exact absurd nests (scalar_flat reads)
    | quoted reads => exact absurd nests (scalar_flat reads)
  · exact .null

theorem scalar_null_iff : Value.decodeScalar kind text = .ok .null ↔ kind = .nothing := by
  constructor
  · intro ok
    rcases scalar_suits ok with suits | ⟨nothing, -⟩
    · cases suits
    · exact nothing
  · rintro rfl
    rfl

theorem decodes_null_iff (column : Column) (text : Text) :
    Value.decode column (some text) = .ok .null ↔ NullText column text := by
  rw [decodes_iff_means]
  constructor
  · intro means
    cases means with
    | scalar reads => exact .inl (scalar_null_iff.mp reads)
    | nested nests read means =>
      exact .inr ⟨nests, (reads_null_iff text).mp ⟨_, read, (means_null_iff nests).mp means⟩⟩
  · rintro (nothing | ⟨nests, word⟩)
    · exact .scalar (scalar_null_iff.mpr nothing)
    · obtain ⟨literal, read, null⟩ := (reads_null_iff text).mpr word
      exact .nested nests read (.null null)

/-! ## Cursors -/

/-- The text of a row's cell that decodes to null under the column at its place. -/
def HoldsNullText (cursor : Cursor) (row : Row) (index : Nat) : Prop :=
  ∃ column text, cursor.columns[index]? = some column ∧
    row.cells[index]? = some (some text) ∧ NullText column text

/-- What asking for null at an index of a cursor on a row tells: whether the null mark was
written there. The value there is null for a null mark and for text that decodes to null, so
the two answers differ just when such text was written. -/
structure Told (cursor : Cursor) (row : Row) (index : Nat) : Prop where
  marked : cursor.isNull index = .ok true ↔ row.cells[index]? = some none
  written : cursor.isNull index = .ok false ↔ ∃ text, row.cells[index]? = some (some text)
  valueless : cursor.value index = .ok none ↔
    cursor.isNull index = .ok true ∨ HoldsNullText cursor row index
  agree : (cursor.isNull index = .ok true ↔ cursor.value index = .ok none) ↔
    ¬ HoldsNullText cursor row index

theorem shown_null_iff : shown outcome = .ok none ↔ outcome = .ok .null := by
  rw [← shows_iff]
  constructor
  · intro same
    rw [same]
    exact .null
  · intro shows
    generalize shown outcome = answer at shows
    cases shows with
    | null => rfl
    | value held => exact absurd rfl held

section Row
variable {cursor : Cursor} {row : Row} (on : cursor.row = .ok row)
include on

private theorem null_at (here : row.cells[index]? = some cell) :
    cursor.isNull index = .ok cell.isNone := by
  rw [Cursor.isNull, cell_at on here]
  rfl

/-- Behind the last cell nothing is answered. -/
theorem no_cell (beyond : row.cells[index]? = none) :
    cursor.cell index = .error (.cursor (.columnOutOfRange index row.size)) := by
  have outside : ¬ index < row.size := Nat.not_lt.mpr (List.getElem?_eq_none_iff.mp beyond)
  rw [Cursor.cell, on]
  exact if_neg outside

theorem value_null_iff (head : cursor.columns[index]? = some column)
    (here : row.cells[index]? = some cell) :
    cursor.value index = .ok none ↔ Value.decode column cell = .ok .null := by
  rw [value_at on head here, shown_null_iff]

private theorem told_beyond (beyond : row.cells[index]? = none) : Told cursor row index := by
  have null : cursor.isNull index = .error (.cursor (.columnOutOfRange index row.size)) := by
    rw [Cursor.isNull, no_cell on beyond]
    rfl
  have value : cursor.value index = .error (.cursor (.columnOutOfRange index row.size)) := by
    rw [Cursor.value, no_cell on beyond]
    rfl
  constructor <;> simp [null, value, beyond, HoldsNullText]

private theorem told_marked (head : cursor.columns[index]? = some column)
    (mark : row.cells[index]? = some none) : Told cursor row index := by
  have null : cursor.isNull index = .ok true := null_at on mark
  have value : cursor.value index = .ok none := (value_null_iff on head mark).mpr rfl
  constructor <;> simp [null, value, mark, HoldsNullText]

private theorem told_written (head : cursor.columns[index]? = some column)
    (here : row.cells[index]? = some (some text)) : Told cursor row index := by
  have null : cursor.isNull index = .ok false := null_at on here
  have holds : HoldsNullText cursor row index ↔ NullText column text := by
    simp [HoldsNullText, head, here]
  have value : cursor.value index = .ok none ↔ NullText column text :=
    (value_null_iff on head here).trans (decodes_null_iff column text)
  constructor <;> simp [null, value, here, holds]

end Row

private theorem told_on {cursor : Cursor} (on : cursor.row = .ok row)
    (width : row.size = cursor.columns.length) (index : Nat) : Told cursor row index := by
  cases here : row.cells[index]? with
  | none => exact told_beyond on here
  | some cell =>
    have inside : index < cursor.columns.length :=
      width ▸ (List.getElem?_eq_some_iff.mp here).1
    have head := List.getElem?_eq_getElem inside
    cases cell with
    | none => exact told_marked on head here
    | some text => exact told_written on head here

/-- Asking for null tells where the null mark was written. On whatever row a cursor has come
to by requests, and at whatever index: the answer is true just for a cell written as the null
mark and false just for a cell with a text; the value is null for null marks and, besides, for
texts that decode to null; so the answer agrees with the value unless the cell holds such
text, which is any text under a column of nothing and a null word, with any blanks around it,
under an array or a tuple. -/
theorem null_marks_told (opened : Cursor.ofFeed feed = .ok cursor) (requests : List Request)
    (on : (after requests cursor).row = .ok row) (index : Nat) :
    Told (after requests cursor) row index := by
  have step := requests_in_step (opened_in_step opened) requests
  exact told_on on (step.width row on) index

/-- Text under a column of nothing, and a null word under an array. -/
def nullTexts : Bytes := Text.toUtf8 "a\tb\nNothing\tArray(Int32)\nx\tNULL\n".toList

theorem null_texts_told :
    ∃ cursor row, Cursor.ofFeed (.plain (.ofBytes nullTexts)) = .ok cursor ∧
      (after [.next] cursor).row = .ok row ∧
      Told (after [.next] cursor) row 0 ∧ Told (after [.next] cursor) row 1 := by
  have shows : ((Cursor.ofFeed (.plain (.ofBytes nullTexts))).bind fun cursor =>
      (after [.next] cursor).row) = .ok ⟨[some ['x'], some "NULL".toList]⟩ := by
    decide +kernel
  obtain ⟨cursor, opened, on⟩ := Outcomes.bind_ok shows
  exact ⟨cursor, _, opened, on, null_marks_told opened [.next] on 0,
    null_marks_told opened [.next] on 1⟩

/-- Neither text is told as null, although the value of both is null. -/
theorem null_texts_not_told :
    ∃ cursor, Cursor.ofFeed (.plain (.ofBytes nullTexts)) = .ok cursor ∧
      (∃ row, (after [.next] cursor).row = .ok row) ∧
      ∀ index < 2, (after [.next] cursor).isNull index = .ok false ∧
        (after [.next] cursor).value index = .ok none := by
  have shows : ((Cursor.ofFeed (.plain (.ofBytes nullTexts))).map fun cursor =>
      ((after [.next] cursor).row,
        (List.range 2).map (after [.next] cursor).isNull,
        (List.range 2).map fun index => ((after [.next] cursor).value index).map Option.isNone)) =
      .ok (.ok ⟨[some ['x'], some "NULL".toList]⟩, [.ok false, .ok false],
        [.ok true, .ok true]) := by
    decide +kernel
  obtain ⟨cursor, opened, same⟩ := Outcomes.map_ok shows
  simp only [Prod.mk.injEq, List.range_succ_eq_map, List.range_zero, List.map_cons, List.map_nil,
    List.cons.injEq, and_true] at same
  obtain ⟨on, ⟨first, second⟩, nothing, null⟩ := same
  have valueless : ∀ {answer : Except Failure (Option Value)},
      .ok true = answer.map Option.isNone → answer = .ok none := by
    intro answer none
    obtain ⟨value, ok, none⟩ := Outcomes.map_ok none.symm
    rw [ok, Option.isNone_iff_eq_none.mp none.symm]
  refine ⟨cursor, opened, ⟨_, on.symm⟩, fun index inside => ?_⟩
  interval_cases index
  · exact ⟨first.symm, valueless nothing⟩
  · exact ⟨second.symm, valueless null⟩

end SqlWire.Nullness
