import SqlWire.Rows.Cursor
import SqlWire.Proofs.LineReading
import SqlWire.Proofs.StreamWriting

/-! A cursor over a compressed body is the cursor over the plain body. Cursors whose
feeds deliver the same content before the same stop answer every request alike, and the
blocks of a writer deliver the bytes it was handed. -/
namespace SqlWire.CursorAgreement
open Transport BlockFraming StreamWriting StreamDecoding LineReading

/-! ## Requests -/

/-- What is asked of a cell of the current row. -/
inductive Getter where
  | text
  | isNull
  | value
  | items
  | valueAs (kind : Kind)
deriving DecidableEq, Repr

/-- What is asked of a cursor. -/
inductive Request where
  | next
  | close
  | row
  | values
  | columnIndex (name : Text)
  | get (getter : Getter) (index : Nat)
deriving DecidableEq, Repr

/-- What a cursor answers. -/
inductive Answer where
  | done
  | moved (result : Except Failure Bool)
  | row (result : Except Failure Row)
  | values (result : Except Failure (List Value))
  | index (result : Except Failure Nat)
  | text (result : Except Failure (Option Text))
  | isNull (result : Except Failure Bool)
  | value (result : Except Failure (Option Value))
  | items (result : Except Failure (Option (List Value)))

def Getter.ask (index : Nat) (cursor : Cursor) : Getter → Answer
  | .text => .text (cursor.cell index)
  | .isNull => .isNull (cursor.isNull index)
  | .value => .value (cursor.value index)
  | .items => .items (cursor.items index)
  | .valueAs kind => .value (cursor.valueAs kind index)

def Request.perform (cursor : Cursor) : Request → Answer × Cursor
  | .next => (.moved cursor.next.1, cursor.next.2)
  | .close => (.done, cursor.close)
  | .row => (.row cursor.row, cursor)
  | .values => (.values cursor.values, cursor)
  | .columnIndex name => (.index (cursor.columnIndex name), cursor)
  | .get getter index => (getter.ask index cursor, cursor)

/-- What shows of a cursor when a request has been answered. -/
structure Observation where
  answer : Answer
  rowCount : Nat
  closed : Bool

/-- Make requests one after the other, and observe the cursor at every step. -/
def observe : List Request → Cursor → List Observation
  | [], _ => []
  | request :: requests, cursor =>
    let (answer, cursor) := request.perform cursor
    ⟨answer, cursor.rowCount, cursor.isClosed⟩ :: observe requests cursor

/-! ## Cursors that answer alike -/

/-- The same lines come out of both. -/
def SameLines (first second : Lines) : Prop :=
  ∃ content stop, Holds first content stop ∧ Holds second content stop

inductive SameStage : Stage → Stage → Prop where
  | beforeFirst (same : SameLines first second) :
      SameStage (.beforeFirst first) (.beforeFirst second)
  | onRow (row : Row) (same : SameLines first second) :
      SameStage (.onRow row first) (.onRow row second)
  | exhausted (first second : Lines) : SameStage (.exhausted first) (.exhausted second)
  | closed : SameStage .closed .closed

/-- Cursors that differ only in where their lines come from. -/
structure Alike (first second : Cursor) : Prop where
  columns : first.columns = second.columns
  rowCount : first.rowCount = second.rowCount
  stage : SameStage first.stage second.stage

/-- The next line is the same text, or the same failure. -/
theorem read_line_agrees (same : SameLines first second) :
    ∃ result after other, Cursor.readLine first = (result, after) ∧
      Cursor.readLine second = (result, other) ∧
      ((∃ text, result = .ok text) → SameLines after other) := by
  obtain ⟨content, stop, holds, holds'⟩ := same
  have yields := next_yields holds
  have yields' := next_yields holds'
  rw [Yields] at yields yields'
  cases read : first.next with
  | mk result after =>
    cases read' : second.next with
    | mk result' other =>
      rw [read] at yields
      rw [read'] at yields'
      cases line : nextLine content stop with
      | error fault =>
        rw [line] at yields yields'
        obtain rfl : result = .error fault := yields
        obtain rfl : result' = .error fault := yields'
        refine ⟨.error (.ofStream fault), after, other, ?_, ?_, by simp⟩
        · rw [Cursor.readLine, read]
        · rw [Cursor.readLine, read']
      | ok found =>
        obtain ⟨line?, rest⟩ := found
        rw [line] at yields yields'
        obtain ⟨rfl, stays⟩ : result = .ok line? ∧ Holds after rest stop := yields
        obtain ⟨rfl, stays'⟩ : result' = .ok line? ∧ Holds other rest stop := yields'
        have kept : SameLines after other := ⟨rest, stop, stays, stays'⟩
        cases line? with
        | none =>
          refine ⟨.ok none, after, other, ?_, ?_, fun _ => kept⟩
          · rw [Cursor.readLine, read]
          · rw [Cursor.readLine, read']
        | some bytes =>
          rw [Cursor.readLine, Cursor.readLine, read, read']
          dsimp only
          cases Text.ofUtf8 bytes with
          | error fault => exact ⟨_, after, other, rfl, rfl, fun _ => kept⟩
          | ok text => exact ⟨_, after, other, rfl, rfl, fun _ => kept⟩

/-- Opening fails alike, or cursors that answer alike are opened. -/
theorem open_agrees (same : SameLines (.ofFeed first) (.ofFeed second)) :
    (∃ failure, Cursor.ofFeed first = .error failure ∧ Cursor.ofFeed second = .error failure) ∨
      ∃ cursor other, Cursor.ofFeed first = .ok cursor ∧ Cursor.ofFeed second = .ok other ∧
        Alike cursor other := by
  obtain ⟨names, after, other, read, read', kept⟩ := read_line_agrees same
  rw [Cursor.ofFeed, Cursor.ofFeed, read, read']
  cases names with
  | error failure => exact .inl ⟨failure, rfl, rfl⟩
  | ok names =>
    cases names with
    | none => exact .inr ⟨_, _, rfl, rfl, rfl, rfl, .exhausted after other⟩
    | some names =>
      obtain ⟨types, last, last', readTypes, readTypes', keptLast⟩ :=
        read_line_agrees (kept ⟨_, rfl⟩)
      dsimp only
      rw [readTypes, readTypes']
      cases types with
      | error failure => exact .inl ⟨failure, rfl, rfl⟩
      | ok types =>
        cases types with
        | none => exact .inl ⟨_, rfl, rfl⟩
        | some types =>
          dsimp only
          cases Cursor.readColumns names types with
          | error fault => exact .inl ⟨_, rfl, rfl⟩
          | ok columns =>
            exact .inr ⟨_, _, rfl, rfl, rfl, rfl, .beforeFirst (keptLast ⟨_, rfl⟩)⟩

private theorem close_agrees (alike : Alike first second) : Alike first.close second.close :=
  ⟨alike.columns, alike.rowCount, .closed⟩

private theorem advance_agrees (alike : Alike first second) (same : SameLines lines others) :
    (first.advance lines).1 = (second.advance others).1 ∧
      Alike (first.advance lines).2 (second.advance others).2 := by
  obtain ⟨line, after, other, read, read', kept⟩ := read_line_agrees same
  rw [Cursor.advance, Cursor.advance, read, read']
  cases line with
  | error failure => exact ⟨rfl, close_agrees alike⟩
  | ok line =>
    cases line with
    | none => exact ⟨rfl, alike.columns, alike.rowCount, .exhausted after other⟩
    | some line =>
      dsimp only
      rw [alike.columns]
      cases Row.ofLine line second.columns.length with
      | error fault => exact ⟨rfl, close_agrees alike⟩
      | ok row =>
        exact ⟨rfl, rfl, congrArg (· + 1) alike.rowCount, .onRow row (kept ⟨_, rfl⟩)⟩

private theorem next_agrees (alike : Alike first second) :
    first.next.1 = second.next.1 ∧ Alike first.next.2 second.next.2 := by
  obtain ⟨columns, stage, rowCount⟩ := first
  obtain ⟨columns', stage', rowCount'⟩ := second
  cases alike.stage with
  | beforeFirst same => exact advance_agrees alike same
  | onRow row same => exact advance_agrees alike same
  | exhausted lines others => exact ⟨rfl, alike⟩
  | closed => exact ⟨rfl, alike⟩

private theorem row_agrees (alike : Alike first second) : first.row = second.row := by
  obtain ⟨columns, stage, rowCount⟩ := first
  obtain ⟨columns', stage', rowCount'⟩ := second
  cases alike.stage <;> rfl

private theorem closed_agrees (alike : Alike first second) : first.isClosed = second.isClosed := by
  obtain ⟨columns, stage, rowCount⟩ := first
  obtain ⟨columns', stage', rowCount'⟩ := second
  cases alike.stage <;> rfl

private theorem getter_agrees (alike : Alike first second) (getter : Getter) (index : Nat) :
    getter.ask index first = getter.ask index second := by
  have cell : first.cell index = second.cell index := by
    rw [Cursor.cell, Cursor.cell, row_agrees alike]
  cases getter with
  | text => rw [Getter.ask, Getter.ask, cell]
  | isNull => rw [Getter.ask, Getter.ask, Cursor.isNull, Cursor.isNull, cell]
  | value => rw [Getter.ask, Getter.ask, Cursor.value, Cursor.value, cell, alike.columns]
  | items => rw [Getter.ask, Getter.ask, Cursor.items, Cursor.items, cell, alike.columns]
  | valueAs kind => rw [Getter.ask, Getter.ask, Cursor.valueAs, Cursor.valueAs, cell]

/-- One request: the answers are the same, and the cursors stay alike. -/
theorem request_agrees (alike : Alike first second) (request : Request) :
    (request.perform first).1 = (request.perform second).1 ∧
      Alike (request.perform first).2 (request.perform second).2 := by
  cases request with
  | next =>
    obtain ⟨same, stays⟩ := next_agrees alike
    exact ⟨congrArg Answer.moved same, stays⟩
  | close => exact ⟨rfl, close_agrees alike⟩
  | row => exact ⟨congrArg Answer.row (row_agrees alike), alike⟩
  | values =>
    refine ⟨?_, alike⟩
    rw [Request.perform, Request.perform, Cursor.values, Cursor.values, row_agrees alike,
      alike.columns]
  | columnIndex name =>
    refine ⟨?_, alike⟩
    rw [Request.perform, Request.perform, Cursor.columnIndex, Cursor.columnIndex, alike.columns]
  | get getter index => exact ⟨getter_agrees alike getter index, alike⟩

/-- Requests one after the other: every step shows the same. -/
theorem observe_agrees (alike : Alike first second) (requests : List Request) :
    observe requests first = observe requests second := by
  induction requests generalizing first second with
  | nil => rfl
  | cons request requests ih =>
    obtain ⟨same, stays⟩ := request_agrees alike request
    simp only [observe]
    rw [same, stays.rowCount, closed_agrees stays, ih stays]

/-! ## Bodies -/

/-- Lines of a plain source and of blocks of the same bytes are the same. -/
theorem blocks_same_lines {plains : List Bytes} (fits : ∀ plain ∈ plains, Fits plain)
    (admits : ∀ plain ∈ plains, Admits limit plain) {plain compressed : Source}
    (body : plain.content = plains.flatten) (ended : plain.ending = .clean)
    (holds : compressed.content = plains.flatMap wire) (clean : compressed.ending = .clean) :
    SameLines (.ofFeed (.plain plain)) (.ofFeed (.blocks (.ofSource compressed limit))) := by
  have reads : Reads (.ofSource compressed limit) plains none := by
    refine ⟨rfl, compressed, plains.flatMap wire, [], rfl, ?_, wires_chain fits admits, ?_⟩
    · rw [holds, List.append_nil]
    · rw [clean]
      exact .ended
  have delivers := Delivers.plain plain
  rw [body, ended] at delivers
  exact ⟨plains.flatten, none, ⟨_, _, delivers, rfl⟩, ⟨_, _, .blocks reads, rfl⟩⟩

/-- A cursor over what a writer of blocks made of a body, and one over the body itself:
either both fail to open with the same failure, or they have the same columns and every
sequence of requests shows the same at every step, whatever the deliveries of the two
sources. A body whose blocks do not fit their headers has no encoding. -/
theorem compressed_body_reads_alike (size limit : Nat) (calls : List Call) (sink : Sink)
    (willing : Willing sink) (empty : sink.taken = [])
    (fits : ∀ piece ∈ pieces (max 1 size) [] calls, Fits piece)
    (admits : ∀ piece ∈ pieces (max 1 size) [] calls, Admits limit piece)
    (plain compressed : Source) (body : plain.content = calls.flatMap Call.data)
    (ended : plain.ending = .clean)
    (holds : compressed.content =
      (run (calls ++ [.flush]) (BlockWriter.ofSink sink size)).2.sink.taken)
    (clean : compressed.ending = .clean) :
    (∃ failure, Cursor.ofFeed (.plain plain) = .error failure ∧
        Cursor.ofFeed (.blocks (.ofSource compressed limit)) = .error failure) ∨
      ∃ cursor other, Cursor.ofFeed (.plain plain) = .ok cursor ∧
        Cursor.ofFeed (.blocks (.ofSource compressed limit)) = .ok other ∧
        cursor.columns = other.columns ∧ cursor.rowCount = other.rowCount ∧
        cursor.isClosed = other.isClosed ∧
        ∀ requests, observe requests cursor = observe requests other := by
  have short : ([] : Bytes).length < max 1 size := Nat.lt_of_lt_of_le Nat.zero_lt_one (by omega)
  obtain ⟨writer, result, wrote⟩ :=
    @run_finishes (BlockWriter.ofSink sink size) willing short calls fits
  have blocks : compressed.content = (pieces (max 1 size) [] calls).flatMap wire := by
    rw [holds, result, wrote.taken]
    show sink.taken ++ _ = _
    rw [empty, List.nil_append]
    rfl
  have parts : plain.content = (pieces (max 1 size) [] calls).flatten := by
    rw [body, pieces_flatten, List.nil_append]
  rcases open_agrees (blocks_same_lines fits admits parts ended blocks clean) with
    failed | ⟨cursor, other, opened, opened', alike⟩
  · exact .inl failed
  · exact .inr ⟨cursor, other, opened, opened', alike.columns, alike.rowCount,
      closed_agrees alike, observe_agrees alike⟩

/-- A header and a row in blocks of two bytes, with a border between a carriage return and
its line feed and one inside a name, are read as without blocks. -/
theorem small_body_reads_alike :
    let body : Bytes := [97, 13, 10, 105, 110, 116, 10, 55, 10]
    let calls : List Call := [.write (body.take 4), .writeAll (body.drop 4)]
    let written := (run (calls ++ [.flush])
      (BlockWriter.ofSink ⟨[], [.upTo 1, .all, .upTo 3], []⟩ 2)).2.sink.taken
    let plain : Source := ⟨[.bytes [97, 13], .interrupted, .bytes (body.drop 2)], .clean⟩
    let compressed : Source := ⟨[.interrupted, .bytes written], .clean⟩
    ∃ cursor other, Cursor.ofFeed (.plain plain) = .ok cursor ∧
      Cursor.ofFeed (.blocks (.ofSource compressed 100)) = .ok other ∧
      cursor.columns = other.columns ∧ cursor.columns.length = 1 ∧
      ∀ requests, observe requests cursor = observe requests other := by
  intro body calls written plain compressed
  have cuts : pieces (max 1 2) [] calls = [[97, 13], [10, 105], [110, 116], [10, 55], [10]] := by
    simp [calls, body, pieces, stretches, cut]
  have small : ∀ piece ∈ pieces (max 1 2) [] calls, Fits piece ∧ Admits 100 piece := by
    rw [cuts]
    intro piece member
    simp only [List.mem_cons, List.not_mem_nil, or_false] at member
    rcases member with rfl | rfl | rfl | rfl | rfl <;>
      exact ⟨⟨by decide, by decide⟩, ⟨by decide, by decide⟩⟩
  have willing : Willing ⟨[], [.upTo 1, .all, .upTo 3], []⟩ := by
    refine ⟨?_, by simp⟩
    simp [Takes]
  have content : ∀ bytes, Source.content ⟨[.interrupted, .bytes bytes], .clean⟩ = bytes := by
    simp [Source.content]
  have columns : (Cursor.ofFeed (.plain plain)).map (·.columns.length) = .ok 1 := by
    decide +kernel
  rcases compressed_body_reads_alike 2 100 calls _ willing rfl (fun piece member =>
      (small piece member).1) (fun piece member => (small piece member).2) plain compressed rfl rfl
      (content written) rfl with
    ⟨failure, failed, -⟩ | ⟨cursor, other, opened, opened', same, -, -, alike⟩
  · rw [failed] at columns
    cases columns
  · rw [opened] at columns
    exact ⟨cursor, other, opened, opened', same, Except.ok.inj columns, alike⟩

end SqlWire.CursorAgreement
