import SqlWire.Proofs.CursorStages
import SqlWire.Proofs.RowReading

/-! Bodies that break off in a failure. The lines that were delivered whole are all there is
to read: a cursor finds their rows, one after the other, and then meets the failure, which
closes it. What was delivered behind the last line feed is never made into a row, and the
rows are never said to have run out. -/
namespace SqlWire.FailedBodies
open BlockFraming LineReading RowReading StreamDecoding CursorAgreement CursorStages

/-! ## Bodies -/

/-- A feed that delivers these bytes and then fails: a source that fails behind its last byte,
or valid blocks in front of a fault. -/
inductive Fails : Feed → Bytes → StreamFault → Prop where
  | plain (ending : source.ending = .fails fault) : Fails (.plain source) source.content (.io fault)
  | blocks (content : source.content = chain ++ behind) (valid : Chain limit chain plains)
      (stops : Stops limit source.ending behind (some fault)) :
      Fails (.blocks (.ofSource source limit)) plains.flatten fault

/-- Bytes cut at their line feeds: whole lines, and a rest in which no line ends. -/
structure Cut (bytes : Bytes) (lines : List Bytes) (rest : Bytes) : Prop where
  parts : bytes = terminated lines ++ rest
  whole : ∀ line ∈ lines, Lines.lineFeed ∉ line
  open_end : Lines.lineFeed ∉ rest

/-- A line of names and a line of types that declare columns. -/
inductive HeaderLines : (names types : Bytes) → List Text → List Text → Prop where
  | header (nameText : textOf names = .ok nameLine) (typeText : textOf types = .ok typeLine)
      (same : (Text.fields '\t' nameLine).length = (Text.fields '\t' typeLine).length) :
      HeaderLines names types ((Text.fields '\t' nameLine).map Text.unescape)
        ((Text.fields '\t' typeLine).map Text.unescape)

/-- The lines of a failing feed come out of what it delivers, with the fault behind them. -/
theorem failing_holds (fails : Fails feed delivered fault) :
    Holds (.ofFeed feed) delivered (some fault) := by
  cases fails with
  | @plain source _ ending =>
    have delivers := Delivers.plain source
    rw [ending] at delivers
    exact ⟨_, _, delivers, rfl⟩
  | blocks content valid stops =>
    exact ⟨_, _, .blocks ⟨rfl, _, _, _, rfl, content, valid, stops⟩, rfl⟩

/-! ## Steps -/

/-- A whole line is found as its row, or closes the cursor. -/
theorem advance_tries (cursor : Cursor)
    (holds : Holds input (line ++ Lines.lineFeed :: rest) stop) (clear : Lines.lineFeed ∉ line) :
    (∃ failure, cursor.advance input = (.error failure, cursor.close)) ∨
      ∃ row, RowLine cursor.columns.length line row := by
  obtain ⟨after, read, -⟩ := read_line_takes holds clear
  cases reads : textOf line with
  | error failure =>
    left
    refine ⟨failure, ?_⟩
    rw [Cursor.advance, read, reads]
    rfl
  | ok text =>
    by_cases wide : (Text.fields '\t' text).length = cursor.columns.length
    · exact .inr ⟨_, .row reads wide⟩
    · left
      rw [Cursor.advance, read, reads]
      simp [Except.map, Row.ofLine, wide]

/-- Where a cursor stands over lines that a failure follows: it has read the first of them
and is ahead of the others, and if it is on a row then on that of the line it read last; or
it is closed. -/
inductive Stands (lines : List Bytes) (rest : Bytes) (fault : StreamFault) (width : Nat)
    (cursor : Cursor) : Prop where
  | ahead (ahead : Ahead cursor input)
      (holds : Holds input (terminated left ++ rest) (some fault))
      (parts : lines = passed ++ left) (counted : cursor.rowCount = passed.length)
      (columns : cursor.columns.length = width)
      (held : ∀ row, cursor.row = .ok row →
        ∃ front line, passed = front ++ [line] ∧ RowLine width line row)
  | closed (stage : cursor.stage = .closed)

private theorem next_stands (stands : Stands lines rest fault width cursor)
    (whole : ∀ line ∈ lines, Lines.lineFeed ∉ line) (ends : Lines.lineFeed ∉ rest) :
    Stands lines rest fault width cursor.next.2 := by
  cases stands with
  | closed stage =>
    rw [Cursor.next, stage]
    exact .closed stage
  | @ahead input left passed ahead holds parts counted columns held =>
    cases left with
    | nil =>
      rw [next_fails ahead holds ends]
      exact .closed rfl
    | cons line left =>
      have clear : Lines.lineFeed ∉ line := whole line (by simp [parts])
      rw [terminated_cons] at holds
      rw [next_advances ahead]
      rcases advance_tries cursor holds clear with ⟨failure, fails⟩ | ⟨row, found⟩
      · rw [fails]
        exact .closed rfl
      · obtain ⟨behind, moves, holdsOn⟩ := advance_finds holds clear found
        rw [moves]
        have passes : lines = passed ++ [line] ++ left := by
          rw [parts, List.append_assoc, List.singleton_append]
        refine .ahead (.inr ⟨row, rfl⟩) holdsOn passes ?_ columns ?_
        · rw [List.length_append, counted]
          rfl
        · intro other same
          cases same
          exact ⟨passed, line, rfl, columns ▸ found⟩

private theorem request_stands (stands : Stands lines rest fault width cursor)
    (whole : ∀ line ∈ lines, Lines.lineFeed ∉ line) (ends : Lines.lineFeed ∉ rest)
    (request : Request) : Stands lines rest fault width (request.perform cursor).2 := by
  cases request with
  | next => exact next_stands stands whole ends
  | close => exact .closed rfl
  | row => exact stands
  | values => exact stands
  | columnIndex name => exact stands
  | get getter index => exact stands

/-- Requests one after the other leave the cursor over its lines. -/
theorem requests_stand (stands : Stands lines rest fault width cursor)
    (whole : ∀ line ∈ lines, Lines.lineFeed ∉ line) (ends : Lines.lineFeed ∉ rest)
    (requests : List Request) : Stands lines rest fault width (after requests cursor) := by
  induction requests generalizing cursor with
  | nil => exact stands
  | cons request requests ih => exact ih (request_stands stands whole ends request)

/-- The row of a cursor is that of the line it counted last. -/
theorem row_of_line {cursor : Cursor} (stands : Stands lines rest fault width cursor)
    (found : cursor.row = .ok row) :
    ∃ index line, cursor.rowCount = index + 1 ∧ lines[index]? = some line ∧
      RowLine width line row := by
  cases stands with
  | closed stage =>
    rw [Cursor.row, stage] at found
    cases found
  | ahead ahead holds parts counted columns held =>
    obtain ⟨front, line, rfl, reads⟩ := held row found
    refine ⟨front.length, line, ?_, ?_, reads⟩
    · rw [counted, List.length_append]
      rfl
    · rw [parts]
      simp

/-- A body that breaks off behind its header in a failure: the cursor opens with the columns
of the header. Where all whole lines behind it hold rows of its width, one move for each of
them finds its row, and the next move is answered with the failure and leaves the cursor
closed. Whatever the lines hold and whatever is asked of the cursor, a row it is on is that of
the whole line it counted last. Only the bytes delivered before the failure decide this, not
how they were delivered. -/
theorem rows_before_failure (fails : Fails feed delivered fault)
    (cut : Cut delivered (names :: types :: lines) rest)
    (header : HeaderLines names types columnNames columnTypes) :
    ∃ cursor, Cursor.ofFeed feed = .ok cursor ∧ cursor.rowCount = 0 ∧
      cursor.columns.map Column.name = columnNames ∧
      cursor.columns.map Column.declared = columnTypes ∧
      (∀ rows, List.Forall₂ (RowLine cursor.columns.length) lines rows →
        ∃ last closed, Gives cursor rows last ∧ last.rowCount = lines.length ∧
          last.next = (.error (.ofStream fault), closed) ∧ closed.stage = .closed) ∧
      ∀ requests row, (after requests cursor).row = .ok row →
        ∃ index line, (after requests cursor).rowCount = index + 1 ∧ lines[index]? = some line ∧
          RowLine cursor.columns.length line row := by
  have holds := failing_holds fails
  obtain ⟨nameText, typeText, same⟩ := header
  obtain ⟨parts, whole, ends⟩ := cut
  obtain ⟨clearNames, behind⟩ := List.forall_mem_cons.mp whole
  obtain ⟨clearTypes, clear⟩ := List.forall_mem_cons.mp behind
  rw [parts, show names :: types :: lines = [names, types] ++ lines from rfl, terminated_append,
    List.append_assoc] at holds
  obtain ⟨cursor, input, opened, stage, holdsRows, count, nameSame, typeSame⟩ :=
    cursor_opens holds (by simp [clearNames, clearTypes]) nameText typeText same
  refine ⟨cursor, opened, count, nameSame, typeSame, ?_, ?_⟩
  · intro rows found
    obtain ⟨last, left, gives, ahead, holdsEnd, -, counted⟩ :=
      rows_given (.inl stage) holdsRows clear found
    refine ⟨last, last.close, gives, ?_, next_fails ahead holdsEnd ends, rfl⟩
    rw [counted, count, Nat.zero_add, found.length_eq]
  · intro requests row found
    have stands : Stands lines rest fault cursor.columns.length cursor := by
      have none : lines = [] ++ lines := rfl
      refine .ahead (.inl stage) holdsRows none count rfl ?_
      intro row here
      rw [Cursor.row, stage] at here
      cases here
    exact row_of_line (requests_stand stands clear ends requests) found

/-- A header, a row and the beginning of another, in two blocks with a border behind the cell
of the row, and a digest that is cut short: the row is found, and then the bad block is. -/
theorem cut_body_gives_row :
    let source : Source :=
      ⟨[.bytes (wire [97, 10, 105, 110, 116, 10, 55]), .interrupted,
        .bytes (wire [10, 56] ++ [1, 2, 3])], .clean⟩
    ∃ cursor last closed, Cursor.ofFeed (.blocks (.ofSource source 100)) = .ok cursor ∧
      cursor.columns.map Column.name = [['a']] ∧
      Gives cursor [⟨[some ['7']]⟩] last ∧
      last.next = (.error (.block (.shortDigest 3)), closed) ∧ closed.stage = .closed := by
  intro source
  let plains : List Bytes := [[97, 10, 105, 110, 116, 10, 55], [10, 56]]
  have small : ∀ plain ∈ plains, Fits plain ∧ Admits 100 plain := by
    intro plain member
    rcases List.mem_pair.mp member with rfl | rfl <;>
      exact ⟨⟨by decide, by decide⟩, ⟨by decide, by decide⟩⟩
  have content : source.content = plains.flatMap wire ++ [1, 2, 3] := by
    simp [source, Source.content, plains]
  have valid : Chain 100 (plains.flatMap wire) plains :=
    wires_chain (fun plain member => (small plain member).1) fun plain member =>
      (small plain member).2
  have fails : Fails (.blocks (.ofSource source 100)) plains.flatten (.block (.shortDigest 3)) :=
    .blocks content valid (.shortDigest (by simp) (by decide))
  have cut : Cut plains.flatten [[97], [105, 110, 116], [55]] [56] :=
    ⟨by decide, by decide, by decide⟩
  have header : HeaderLines [97] [105, 110, 116] [['a']] [['i', 'n', 't']] :=
    @HeaderLines.header _ ['a'] _ ['i', 'n', 't'] rfl rfl rfl
  obtain ⟨cursor, opened, -, names, -, delivered, -⟩ := rows_before_failure fails cut header
  have width : cursor.columns.length = 1 := by
    rw [← List.length_map Column.name, names]
    rfl
  have row : RowLine 1 [55] ⟨[some ['7']]⟩ := @RowLine.row 1 [55] ['7'] rfl rfl
  obtain ⟨last, closed, gives, -, meets, stage⟩ :=
    delivered [⟨[some ['7']]⟩] (.cons (width ▸ row) .nil)
  exact ⟨cursor, last, closed, opened, names, gives, meets, stage⟩

end SqlWire.FailedBodies
