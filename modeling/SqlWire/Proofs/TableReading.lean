import SqlWire.Proofs.RowReading
import SqlWire.Proofs.Utf8Text

/-! Tables survive their text. Escaping keeps tabs and line endings out of every field and
the null mark out of every text, so a body cut at its line feeds, and its lines at their
tabs, falls into the fields it was written of: a cursor over it has the names and types of
the table and finds its rows. -/
namespace SqlWire.TableReading
open Text LineReading RowReading StreamDecoding

/-! ## Fields -/

/-- A character as it is written in a field. -/
def escapeChar (c : Char) : Text :=
  if c = '\\' then ['\\', '\\']
  else if c = '\t' then ['\\', 't']
  else if c = '\n' then ['\\', 'n']
  else if c = '\r' then ['\\', 'r']
  else [c]

/-- A text as it is written in a field. -/
def escape (text : Text) : Text := text.flatMap escapeChar

/-- A cell as it is written: null as its mark, and text escaped. -/
def writeCell : Option Text → Text
  | none => Row.nullMark
  | some text => escape text

private theorem unescape_plain (plain : c ≠ '\\') (text : Text) :
    unescape (c :: text) = c :: unescape text := by
  rw [unescape.eq_def]
  split <;> simp_all

private theorem unescape_escaped (text : Text) : unescape (escape text) = text := by
  unfold escape
  induction text with
  | nil => rfl
  | cons c text ih =>
    rw [List.flatMap_cons, escapeChar]
    split
    next same => simp [unescape, unescapeChar, ih, same]
    next plain =>
      split
      next same => simp [unescape, unescapeChar, ih, same]
      split
      next same => simp [unescape, unescapeChar, ih, same]
      split
      next same => simp [unescape, unescapeChar, ih, same]
      · rw [List.singleton_append, unescape_plain plain, ih]

/-- Escaped text has no tab and no line ending in it. -/
theorem escaped_clear (member : c ∈ escape text) : c ≠ '\t' ∧ c ≠ '\n' ∧ c ≠ '\r' := by
  obtain ⟨d, -, here⟩ := List.mem_flatMap.mp member
  unfold escapeChar at here
  split at here
  · simp at here
    subst here
    decide
  split at here
  · rcases List.mem_pair.mp here with rfl | rfl <;> decide
  split at here
  · rcases List.mem_pair.mp here with rfl | rfl <;> decide
  split at here
  · rcases List.mem_pair.mp here with rfl | rfl <;> decide
  next tab feed ret =>
    obtain rfl := List.mem_singleton.mp here
    exact ⟨tab, feed, ret⟩

/-- No text is written as null is. -/
theorem escaped_not_null (text : Text) : escape text ≠ Row.nullMark := by
  intro same
  have kept := unescape_escaped text
  rw [same] at kept
  subst kept
  revert same
  decide

private theorem cell_reads (cell : Option Text) : Row.readCell (writeCell cell) = cell := by
  unfold Row.readCell
  cases cell with
  | none => rfl
  | some text =>
    rw [writeCell, if_neg (escaped_not_null text), unescape_escaped]

private theorem cell_clear (member : c ∈ writeCell cell) : c ≠ '\t' ∧ c ≠ '\n' ∧ c ≠ '\r' := by
  cases cell with
  | none =>
    rcases List.mem_pair.mp member with rfl | rfl <;> decide
  | some text => exact escaped_clear member

/-! ## Lines -/

private theorem fields_from_append {separator : Char} {front : Text} (clear : separator ∉ front)
    (rest : Text) : fieldsFrom separator (front ++ rest) =
      (front ++ (fieldsFrom separator rest).1, (fieldsFrom separator rest).2) := by
  induction front with
  | nil => rfl
  | cons c front ih =>
    rw [List.mem_cons, not_or] at clear
    rw [List.cons_append, fieldsFrom, ih clear.2]
    simp [Ne.symm clear.1]

/-- A line of joined fields is cut into these fields. -/
theorem fields_joined {separator : Char} {pieces : List Text} (some : pieces ≠ [])
    (clear : ∀ piece ∈ pieces, separator ∉ piece) :
    fields separator (joinWith [separator] pieces) = pieces := by
  induction pieces with
  | nil => exact absurd rfl some
  | cons piece others ih =>
    obtain ⟨here, behind⟩ := List.forall_mem_cons.mp clear
    cases others with
    | nil =>
      have single := fields_from_append here []
      rw [List.append_nil] at single
      simp [joinWith, fields, single, fieldsFrom]
    | cons next others =>
      have rest := ih (by simp) behind
      rw [joinWith, List.append_assoc, List.singleton_append, fields, fields_from_append here,
        fieldsFrom]
      simpa [fields] using rest

private theorem joined_mem {glue : Text} {pieces : List Text} (member : c ∈ joinWith glue pieces) :
    c ∈ glue ∨ ∃ piece ∈ pieces, c ∈ piece := by
  induction pieces with
  | nil => cases member
  | cons piece others ih =>
    cases others with
    | nil => exact .inr ⟨piece, List.mem_cons_self, member⟩
    | cons next others =>
      rw [joinWith, List.mem_append, List.mem_append] at member
      rcases member with (here | glued) | behind
      · exact .inr ⟨piece, List.mem_cons_self, here⟩
      · exact .inl glued
      · rcases ih behind with glued | ⟨other, within, there⟩
        · exact .inl glued
        · exact .inr ⟨other, List.mem_cons_of_mem _ within, there⟩

/-- A text in which no line ends. -/
def Unbroken (text : Text) : Prop := '\n' ∉ text ∧ '\r' ∉ text

/-- Fields without a character that ends them or their line. -/
def Clear (pieces : List Text) : Prop :=
  ∀ piece ∈ pieces, ∀ c ∈ piece, c ≠ '\t' ∧ c ≠ '\n' ∧ c ≠ '\r'

private theorem texts_clear (texts : List Text) : Clear (texts.map escape) := by
  intro piece member c within
  obtain ⟨text, -, rfl⟩ := List.mem_map.mp member
  exact escaped_clear within

private theorem cells_clear (cells : List (Option Text)) : Clear (cells.map writeCell) := by
  intro piece member c within
  obtain ⟨cell, -, rfl⟩ := List.mem_map.mp member
  exact cell_clear within

private theorem clear_joined (clear : Clear pieces) : Unbroken (joinWith ['\t'] pieces) := by
  have each : ∀ c ∈ joinWith ['\t'] pieces, c ≠ '\n' ∧ c ≠ '\r' := by
    intro c member
    rcases joined_mem member with tab | ⟨piece, within, here⟩
    · rw [List.mem_singleton.mp tab]
      decide
    · exact (clear piece within c here).2
  exact ⟨fun member => (each _ member).1 rfl, fun member => (each _ member).2 rfl⟩

private theorem clear_fields (some : pieces ≠ []) (clear : Clear pieces) :
    fields '\t' (joinWith ['\t'] pieces) = pieces :=
  fields_joined some fun piece member tab => (clear piece member '\t' tab).1 rfl

/-- How a line ends. -/
inductive LineEnd where
  | lineFeed
  /-- A carriage return and a line feed. -/
  | both
deriving DecidableEq, Repr

def LineEnd.bytes : LineEnd → Bytes
  | .lineFeed => [Lines.lineFeed]
  | .both => [Lines.carriageReturn, Lines.lineFeed]

/-- Texts as the lines of a body, each with an ending of its own. -/
inductive Written : List Text → Bytes → Prop where
  | none : Written [] []
  | line (ending : LineEnd) (behind : Written texts bytes) :
      Written (text :: texts) (toUtf8 text ++ ending.bytes ++ bytes)

/-- A line that is read as a text. -/
structure LineOf (text : Text) (line : Bytes) : Prop where
  clear : Lines.lineFeed ∉ line
  reads : textOf line = .ok text

/-- A text in which no line ends is read back from its line, whatever its ending. -/
theorem line_of_text (unbroken : Unbroken text) (ending : LineEnd) :
    ∃ line, toUtf8 text ++ ending.bytes = line ++ [Lines.lineFeed] ∧ LineOf text line := by
  have feed : Lines.lineFeed ∉ toUtf8 text := fun member =>
    unbroken.1 (Utf8Text.ascii_inside member (by decide))
  have back : Lines.carriageReturn ∉ toUtf8 text := fun member =>
    unbroken.2 (Utf8Text.ascii_inside member (by decide))
  cases ending with
  | lineFeed =>
    refine ⟨toUtf8 text, rfl, feed, ?_⟩
    have whole : Lines.dropReturn (toUtf8 text) = toUtf8 text := by
      apply if_neg
      exact fun last => back (List.mem_of_getLast? last)
    rw [textOf, whole, Utf8Text.text_decodes]
    rfl
  | both =>
    refine ⟨toUtf8 text ++ [Lines.carriageReturn], by simp [LineEnd.bytes], ?_, ?_⟩
    · rw [List.mem_append, not_or]
      exact ⟨feed, by decide⟩
    · have whole : Lines.dropReturn (toUtf8 text ++ [Lines.carriageReturn]) = toUtf8 text := by
        simp [Lines.dropReturn]
      rw [textOf, whole, Utf8Text.text_decodes]
      rfl

/-- A written body falls into lines that are read as the texts it was written of. -/
theorem written_lines (written : Written texts bytes) (unbroken : ∀ text ∈ texts, Unbroken text) :
    ∃ lines, bytes = terminated lines ∧ List.Forall₂ LineOf texts lines := by
  induction written with
  | none => exact ⟨[], rfl, .nil⟩
  | line ending behind ih =>
    obtain ⟨here, others⟩ := List.forall_mem_cons.mp unbroken
    obtain ⟨line, ends, reads⟩ := line_of_text here ending
    obtain ⟨lines, rfl, each⟩ := ih others
    exact ⟨line :: lines, by rw [ends]; simp [terminated], .cons reads each⟩

/-! ## Tables -/

/-- Column names, a type for each, and rows of a cell for each. -/
structure Table where
  names : List Text
  types : List Text
  rows : List (List (Option Text))
  some_column : names ≠ []
  typed : types.length = names.length
  wide : ∀ cells ∈ rows, cells.length = names.length

/-- The lines a table is written in. -/
def Table.lines (table : Table) : List Text :=
  joinWith ['\t'] (table.names.map escape) :: joinWith ['\t'] (table.types.map escape) ::
    table.rows.map fun cells => joinWith ['\t'] (cells.map writeCell)

private theorem table_unbroken (table : Table) : ∀ text ∈ table.lines, Unbroken text := by
  intro text member
  rcases List.mem_cons.mp member with rfl | member
  · exact clear_joined (texts_clear table.names)
  rcases List.mem_cons.mp member with rfl | member
  · exact clear_joined (texts_clear table.types)
  obtain ⟨cells, -, rfl⟩ := List.mem_map.mp member
  exact clear_joined (cells_clear cells)

private theorem texts_read (some : texts ≠ []) :
    fields '\t' (joinWith ['\t'] (texts.map escape)) = texts.map escape :=
  clear_fields (by simpa using some) (texts_clear texts)

private theorem texts_kept (texts : List Text) : (texts.map escape).map unescape = texts := by
  rw [List.map_map]
  exact List.map_id'' unescape_escaped texts

/-- The line of a row holds the row. -/
theorem cells_row_line (line : LineOf (joinWith ['\t'] (cells.map writeCell)) bytes)
    (some : cells ≠ []) : RowLine cells.length bytes ⟨cells⟩ := by
  have read : fields '\t' (joinWith ['\t'] (cells.map writeCell)) = cells.map writeCell :=
    clear_fields (by simpa using some) (cells_clear cells)
  have wide : (fields '\t' (joinWith ['\t'] (cells.map writeCell))).length = cells.length := by
    rw [read, List.length_map]
  have kept : (fields '\t' (joinWith ['\t'] (cells.map writeCell))).map Row.readCell = cells := by
    rw [read, List.map_map]
    exact List.map_id'' cell_reads cells
  have row := RowLine.row line.reads wide
  rwa [kept] at row

/-- The lines of rows hold the rows. -/
theorem row_lines {rows : List (List (Option Text))}
    (wide : ∀ cells ∈ rows, cells.length = width) (some : 0 < width)
    (each : List.Forall₂ LineOf (rows.map fun cells => joinWith ['\t'] (cells.map writeCell))
      lines) :
    (∀ line ∈ lines, Lines.lineFeed ∉ line) ∧
      List.Forall₂ (RowLine width) lines (rows.map Row.mk) := by
  induction rows generalizing lines with
  | nil =>
    cases each
    exact ⟨by simp, .nil⟩
  | cons cells rows ih =>
    obtain ⟨same, wideOthers⟩ := List.forall_mem_cons.mp wide
    cases each with
    | cons here others =>
      obtain ⟨clear, found⟩ := ih wideOthers others
      have present : cells ≠ [] := by
        rintro rfl
        exact Nat.ne_of_lt some same
      refine ⟨List.forall_mem_cons.mpr ⟨here.clear, clear⟩, .cons ?_ found⟩
      rw [← same]
      exact cells_row_line here present

/-- A written table is read back: the cursor over it has its names and its types as they
were, one move for each row finds just the cells of the row, and the move behind the last
finds the end, whatever the deliveries of the source and the endings of the lines. -/
theorem table_reads_back (table : Table) (source : Source)
    (written : Written table.lines source.content) (clean : source.ending = .clean) :
    ∃ cursor last ended, Cursor.ofFeed (.plain source) = .ok cursor ∧
      cursor.columns.map Column.name = table.names ∧
      cursor.columns.map Column.declared = table.types ∧ cursor.rowCount = 0 ∧
      Gives cursor (table.rows.map Row.mk) last ∧ last.next = (.ok false, ended) ∧
      ended.rowCount = table.rows.length := by
  obtain ⟨lines, content, each⟩ := written_lines written (table_unbroken table)
  obtain ⟨⟩ | @⟨_, names, _, _, readNames, each⟩ := each
  obtain ⟨⟩ | @⟨_, types, _, rowLines, readTypes, each⟩ := each
  obtain ⟨clear, found⟩ := row_lines table.wide (List.length_pos_iff.mpr table.some_column) each
  have someType : table.types ≠ [] := by
    rw [← List.length_pos_iff, table.typed]
    exact List.length_pos_iff.mpr table.some_column
  have holds : Holds (.ofFeed (.plain source))
      (terminated [names, types] ++ (terminated rowLines ++ [])) none := by
    have delivers := Delivers.plain source
    rw [clean] at delivers
    refine ⟨_, _, delivers, ?_⟩
    rw [List.append_nil, ← terminated_append, content]
    rfl
  have same : (fields '\t' (joinWith ['\t'] (table.names.map escape))).length =
      (fields '\t' (joinWith ['\t'] (table.types.map escape))).length := by
    rw [texts_read table.some_column, texts_read someType, List.length_map, List.length_map,
      table.typed]
  obtain ⟨cursor, input, opened, stage, holdsRows, count, nameSame, typeSame⟩ :=
    cursor_opens holds (by simp [readNames.clear, readTypes.clear]) readNames.reads
      readTypes.reads same
  rw [texts_read table.some_column, texts_kept] at nameSame
  rw [texts_read someType, texts_kept] at typeSame
  have width : cursor.columns.length = table.names.length := by
    rw [← nameSame, List.length_map]
  obtain ⟨last, behind, gives, ahead, holdsEnd, -, counted⟩ :=
    rows_given (.inl stage) holdsRows clear (width ▸ found)
  obtain ⟨ended, moves, kept⟩ := next_ends ahead holdsEnd
  refine ⟨cursor, last, ended, opened, nameSame, typeSame, count, gives, moves, ?_⟩
  rw [kept, counted, count, List.length_map, Nat.zero_add]

/-- A tab inside a name, the null mark as text beside null, an empty cell and a return at the
end of a cell: with both endings of lines, and a delivery that ends inside a character and
one between a return and its line feed, the cells are found as they were. -/
theorem hard_cells_read_back :
    let rows : List (List (Option Text)) :=
      [[none, some ['\\', 'N']], [some [], some ['x', '\r']]]
    let source : Source := ⟨[
      .bytes [97, 92, 116, 98, 9, 195], .interrupted, .bytes [169, 10, 73, 110, 116, 9, 92, 92, 13],
      .bytes [10, 92, 78, 9, 92, 92, 78, 10, 9, 120, 92, 114, 13, 10]], .clean⟩
    ∃ cursor last, Cursor.ofFeed (.plain source) = .ok cursor ∧
      cursor.columns.map Column.name = [['a', '\t', 'b'], ['é']] ∧
      cursor.columns.map Column.declared = [['I', 'n', 't'], ['\\']] ∧
      Gives cursor (rows.map Row.mk) last ∧ last.next.1 = .ok false ∧ last.next.2.rowCount = 2 := by
  intro rows source
  let table : Table := ⟨[['a', '\t', 'b'], ['é']], [['I', 'n', 't'], ['\\']], rows,
    by simp, by rfl, by simp [rows]⟩
  have written : Written table.lines source.content := by
    have parts : source.content = toUtf8 ['a', '\\', 't', 'b', '\t', 'é'] ++ LineEnd.lineFeed.bytes ++
        (toUtf8 ['I', 'n', 't', '\t', '\\', '\\'] ++ LineEnd.both.bytes ++
        (toUtf8 ['\\', 'N', '\t', '\\', '\\', 'N'] ++ LineEnd.lineFeed.bytes ++
        (toUtf8 ['\t', 'x', '\\', 'r'] ++ LineEnd.both.bytes ++ []))) := by
      decide +kernel
    rw [parts]
    exact .line .lineFeed (.line .both (.line .lineFeed (.line .both .none)))
  obtain ⟨cursor, last, ended, opened, names, types, -, gives, moves, count⟩ :=
    table_reads_back table source written rfl
  exact ⟨cursor, last, opened, names, types, gives, by rw [moves], by rw [moves]; exact count⟩

end SqlWire.TableReading
