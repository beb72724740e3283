import SqlWire.Rows.Cursor
import SqlWire.Proofs.LineReading
import Mathlib.Data.List.Forall2

/-! Rows out of the lines of a body. A body is cut at its line feeds, and a cursor over it
takes one line a move: where the lines hold rows of its width they are the rows it finds,
in their order and with their cells. -/
namespace SqlWire.RowReading
open LineReading StreamDecoding

/-! ## Lines of a body -/

/-- Lines, each with a line feed behind it. -/
def terminated (lines : List Bytes) : Bytes := lines.flatMap (· ++ [Lines.lineFeed])

theorem terminated_append (front behind : List Bytes) :
    terminated (front ++ behind) = terminated front ++ terminated behind := List.flatMap_append ..

theorem terminated_cons (line : Bytes) (lines : List Bytes) (rest : Bytes) :
    terminated (line :: lines) ++ rest =
      line ++ Lines.lineFeed :: (terminated lines ++ rest) := by
  simp [terminated]

/-- A body is cut at its first line feed. -/
theorem cut_line (clear : Lines.lineFeed ∉ line) (rest : Bytes) :
    Lines.cut? (line ++ Lines.lineFeed :: rest) = some (line, rest) := by
  induction line with
  | nil => rfl
  | cons b line ih =>
    rw [List.mem_cons, not_or] at clear
    rw [List.cons_append, Lines.cut?, if_neg (Ne.symm clear.1), ih clear.2]
    rfl

private theorem cut_rest (clear : Lines.lineFeed ∉ rest) : Lines.cut? rest = none := by
  induction rest with
  | nil => rfl
  | cons b rest ih =>
    rw [List.mem_cons, not_or] at clear
    rw [Lines.cut?, if_neg (Ne.symm clear.1), ih clear.2]
    rfl

/-- What a terminated line is read as. -/
def textOf (line : Bytes) : Except Failure Text :=
  (Text.ofUtf8 (Lines.dropReturn line)).mapError fun fault => .layout (.notUtf8 fault)

/-- The line in front is read, and the content behind it is left. -/
theorem read_line_takes
    (holds : Holds lines (line ++ Lines.lineFeed :: rest) stop)
    (clear : Lines.lineFeed ∉ line) :
    ∃ after, Cursor.readLine lines = ((textOf line).map some, after) ∧ Holds after rest stop := by
  have yields := next_yields holds
  rw [Yields, nextLine.eq_def, cut_line clear] at yields
  unfold Cursor.readLine textOf
  cases read : lines.next with
  | mk result after =>
    rw [read] at yields
    obtain ⟨found, behind⟩ : result = .ok (some (Lines.dropReturn line)) ∧ Holds after rest stop :=
      yields
    subst found
    refine ⟨after, ?_, behind⟩
    dsimp only
    cases Text.ofUtf8 (Lines.dropReturn line) <;> rfl

/-- Where no line ends before a fault, the fault is met. -/
theorem read_line_fails (holds : Holds lines rest (some fault)) (clear : Lines.lineFeed ∉ rest) :
    ∃ after, Cursor.readLine lines = (.error (.ofStream fault), after) := by
  have yields := next_yields holds
  rw [Yields, nextLine, cut_rest clear] at yields
  unfold Cursor.readLine
  cases read : lines.next with
  | mk result after =>
    rw [read] at yields
    obtain rfl : result = .error fault := yields
    exact ⟨after, rfl⟩

/-- At the clean end there is no line. -/
theorem read_line_ends (holds : Holds lines [] none) :
    ∃ after, Cursor.readLine lines = (.ok none, after) := by
  have yields := next_yields holds
  rw [Yields, nextLine] at yields
  unfold Cursor.readLine
  cases read : lines.next with
  | mk result after =>
    rw [read] at yields
    obtain ⟨rfl, -⟩ : result = .ok none ∧ Holds after [] none := yields
    exact ⟨after, rfl⟩

/-! ## Headers -/

/-- As many names as types declare a column each. -/
theorem columns_declared
    (same : (Text.fields '\t' names).length = (Text.fields '\t' types).length) :
    ∃ columns, Cursor.readColumns names types = .ok columns ∧
      columns.map Column.name = (Text.fields '\t' names).map Text.unescape ∧
      columns.map Column.declared = (Text.fields '\t' types).map Text.unescape := by
  have name : ∀ name type, (Column.ofDeclaration name type).name = name := by
    intro name type
    unfold Column.ofDeclaration Column.declaredAs
    cases (TypeName.read? type).getD (Column.ofKind .unknown) <;> rfl
  have declared : ∀ name type, (Column.ofDeclaration name type).declared = type := by
    intro name type
    unfold Column.ofDeclaration Column.declaredAs
    cases (TypeName.read? type).getD (Column.ofKind .unknown) <;> rfl
  unfold Cursor.readColumns
  dsimp only
  rw [if_pos same]
  refine ⟨_, rfl, ?_, ?_⟩
  · apply List.ext_getElem <;> simp [same, name]
  · apply List.ext_getElem <;> simp [same, declared]

/-- A cursor is opened behind two lines that declare columns. -/
theorem cursor_opens
    (holds : Holds (.ofFeed feed) (terminated [names, types] ++ content) stop)
    (clear : ∀ line ∈ [names, types], Lines.lineFeed ∉ line)
    (nameText : textOf names = .ok nameLine) (typeText : textOf types = .ok typeLine)
    (same : (Text.fields '\t' nameLine).length = (Text.fields '\t' typeLine).length) :
    ∃ cursor lines, Cursor.ofFeed feed = .ok cursor ∧ cursor.stage = .beforeFirst lines ∧
      Holds lines content stop ∧ cursor.rowCount = 0 ∧
      cursor.columns.map Column.name = (Text.fields '\t' nameLine).map Text.unescape ∧
      cursor.columns.map Column.declared = (Text.fields '\t' typeLine).map Text.unescape := by
  have clearNames := clear names (by simp)
  have clearTypes := clear types (by simp)
  rw [terminated_cons] at holds
  obtain ⟨behindNames, readNames, holdsTypes⟩ := read_line_takes holds clearNames
  rw [terminated_cons] at holdsTypes
  obtain ⟨lines, readTypes, holdsRows⟩ := read_line_takes holdsTypes clearTypes
  obtain ⟨columns, declared, names, types⟩ := columns_declared same
  refine ⟨⟨columns, .beforeFirst lines, 0⟩, lines, ?_, rfl, holdsRows, rfl, names, types⟩
  unfold Cursor.ofFeed
  rw [readNames, nameText]
  dsimp only [Except.map]
  rw [readTypes, typeText]
  dsimp only [Except.map]
  rw [declared]

/-! ## Rows -/

/-- A line that holds a row of this width. -/
inductive RowLine (width : Nat) : Bytes → Row → Prop where
  | row (reads : textOf line = .ok text) (wide : (Text.fields '\t' text).length = width) :
      RowLine width line ⟨(Text.fields '\t' text).map Row.readCell⟩

/-- The rows that one move after the other finds. -/
inductive Gives : Cursor → List Row → Cursor → Prop where
  | none : Gives cursor [] cursor
  | row (moves : cursor.next = (.ok true, after)) (found : after.row = .ok row)
      (behind : Gives after rows last) : Gives cursor (row :: rows) last

/-- A cursor that has not come to the end of its rows, and the lines it goes on with. -/
def Ahead (cursor : Cursor) (lines : Lines) : Prop :=
  cursor.stage = .beforeFirst lines ∨ ∃ row, cursor.stage = .onRow row lines

theorem next_advances (ahead : Ahead cursor lines) : cursor.next = cursor.advance lines := by
  unfold Cursor.next
  rcases ahead with stage | ⟨row, stage⟩ <;> rw [stage]

/-- A line that holds a row is what a move finds. -/
theorem advance_finds {cursor : Cursor}
    (holds : Holds lines (line ++ Lines.lineFeed :: rest) stop)
    (clear : Lines.lineFeed ∉ line) (found : RowLine cursor.columns.length line row) :
    ∃ after, cursor.advance lines =
        (.ok true, { cursor with stage := .onRow row after, rowCount := cursor.rowCount + 1 }) ∧
      Holds after rest stop := by
  obtain ⟨after, read, behind⟩ := read_line_takes holds clear
  refine ⟨after, ?_, behind⟩
  obtain ⟨reads, wide⟩ := found
  unfold Cursor.advance
  rw [read, reads]
  simp [Except.map, Row.ofLine, wide]

/-- Lines that hold rows are found as these rows, one a move. -/
theorem rows_given (ahead : Ahead cursor lines)
    (holds : Holds lines (terminated rowLines ++ rest) stop)
    (clear : ∀ line ∈ rowLines, Lines.lineFeed ∉ line)
    (rows : List.Forall₂ (RowLine cursor.columns.length) rowLines found) :
    ∃ last behind, Gives cursor found last ∧ Ahead last behind ∧ Holds behind rest stop ∧
      last.columns = cursor.columns ∧ last.rowCount = cursor.rowCount + found.length := by
  generalize width : cursor.columns.length = wide at rows
  induction rows generalizing cursor lines with
  | nil => exact ⟨cursor, lines, .none, ahead, holds, rfl, rfl⟩
  | @cons line row rowLines found here _ ih =>
    obtain ⟨clearHere, clearOthers⟩ := List.forall_mem_cons.mp clear
    rw [terminated_cons] at holds
    obtain ⟨after, moves, behind⟩ := advance_finds holds clearHere (width ▸ here)
    rw [← next_advances ahead] at moves
    let moved : Cursor :=
      { cursor with stage := .onRow row after, rowCount := cursor.rowCount + 1 }
    have aheadMoved : Ahead moved after := .inr ⟨row, rfl⟩
    obtain ⟨last, left, gives, aheadStill, holdsStill, columns, count⟩ :=
      ih aheadMoved behind clearOthers width
    refine ⟨last, left, .row moves rfl gives, aheadStill, holdsStill, columns, ?_⟩
    rw [count, List.length_cons, show moved.rowCount = cursor.rowCount + 1 from rfl]
    omega

/-- Behind the last line a move finds the clean end. -/
theorem next_ends (ahead : Ahead cursor lines) (holds : Holds lines [] none) :
    ∃ ended, cursor.next = (.ok false, ended) ∧ ended.rowCount = cursor.rowCount := by
  obtain ⟨after, read⟩ := read_line_ends holds
  refine ⟨{ cursor with stage := .exhausted after }, ?_, rfl⟩
  rw [next_advances ahead, Cursor.advance, read]

/-- Behind the last line a move meets the fault, which closes the cursor. -/
theorem next_fails (ahead : Ahead cursor lines) (holds : Holds lines rest (some fault))
    (clear : Lines.lineFeed ∉ rest) :
    cursor.next = (.error (.ofStream fault), cursor.close) := by
  obtain ⟨after, read⟩ := read_line_fails holds clear
  rw [next_advances ahead, Cursor.advance, read]

end SqlWire.RowReading
