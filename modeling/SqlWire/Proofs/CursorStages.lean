import SqlWire.Proofs.CursorAgreement

/-! The stages of a cursor. A request can only move it or close it, so the answers given so
far decide whether it is on a row, has run out of rows or is closed, and how many rows it
has counted. Where the rows have run out it lets its input be, and what is closed stays
closed and has nothing more to give than its columns and its count. -/
namespace SqlWire.CursorStages
open CursorAgreement

/-! ## Histories -/

/-- The cursor that requests leave. -/
def after (requests : List Request) (cursor : Cursor) : Cursor :=
  requests.foldl (fun cursor request => (request.perform cursor).2) cursor

/-- The answers that requests are given, in their order. -/
def answers (requests : List Request) (cursor : Cursor) : List Answer :=
  (observe requests cursor).map Observation.answer

/-- Whether an answer is one to moving or closing. -/
def isMove : Answer → Bool
  | .done => true
  | .moved _ => true
  | _ => false

/-- Whether an answer is that of a move to a row. -/
def foundRow : Answer → Bool
  | .moved (.ok found) => found
  | _ => false

/-- What the last move or closing was answered. -/
def lastMove (given : List Answer) : Option Answer := given.reverse.find? isMove

/-- The failure that an answer reports. -/
def failure? : Answer → Option Failure
  | .moved (.error failure) => some failure
  | .row (.error failure) => some failure
  | .values (.error failure) => some failure
  | .index (.error failure) => some failure
  | .text (.error failure) => some failure
  | .isNull (.error failure) => some failure
  | .value (.error failure) => some failure
  | .items (.error failure) => some failure
  | _ => none

/-- Whether a request reads the current row. -/
def readsRow : Request → Bool
  | .row => true
  | .values => true
  | .get _ _ => true
  | _ => false

private theorem last_move_append (given : List Answer) (answer : Answer) :
    lastMove (given ++ [answer]) = if isMove answer then some answer else lastMove given := by
  unfold lastMove
  rw [List.reverse_append, List.reverse_singleton, List.singleton_append, List.find?_cons]
  cases isMove answer <;> rfl

private theorem count_append (given : List Answer) (answer : Answer) :
    (given ++ [answer]).countP foundRow =
      if foundRow answer then given.countP foundRow + 1 else given.countP foundRow := by
  rw [List.countP_append, List.countP_singleton]
  split <;> rfl

/-! ## Moves -/

/-- What moving on does, and all it does. -/
inductive Moved (cursor : Cursor) : Except Failure Bool × Cursor → Prop where
  | closed (stage : cursor.stage = .closed) : Moved cursor (.error (.cursor .closed), cursor)
  | exhausted (stage : cursor.stage = .exhausted lines) : Moved cursor (.ok false, cursor)
  | failed (failure : Failure) : Moved cursor (.error failure, cursor.close)
  | ended (lines : Lines) : Moved cursor (.ok false, { cursor with stage := .exhausted lines })
  | found (lines : Lines) (width : row.size = cursor.columns.length) :
      Moved cursor
        (.ok true, { cursor with stage := .onRow row lines, rowCount := cursor.rowCount + 1 })

/-- The row of a line is as wide as it was asked to be. -/
theorem row_width (ok : Row.ofLine line width = .ok row) : row.size = width := by
  unfold Row.ofLine at ok
  dsimp only at ok
  split at ok
  next same =>
    cases ok
    exact same
  · cases ok

private theorem advance_moves (cursor : Cursor) (lines : Lines) :
    Moved cursor (cursor.advance lines) := by
  unfold Cursor.advance
  cases Cursor.readLine lines with
  | mk result rest =>
    cases result with
    | error failure => exact .failed failure
    | ok line =>
      cases line with
      | none => exact .ended rest
      | some line =>
        dsimp only
        cases found : Row.ofLine line cursor.columns.length with
        | error fault => exact .failed (.layout fault)
        | ok row => exact .found rest (row_width found)

private theorem next_moves (cursor : Cursor) : Moved cursor cursor.next := by
  unfold Cursor.next
  cases stage : cursor.stage with
  | beforeFirst lines => exact advance_moves cursor lines
  | onRow row lines => exact advance_moves cursor lines
  | exhausted lines => exact .exhausted stage
  | closed => exact .closed stage

private theorem moved_columns (moved : Moved cursor outcome) :
    outcome.2.columns = cursor.columns := by
  cases moved <;> rfl

private theorem moved_count (moved : Moved cursor outcome) : outcome.2.rowCount =
    if foundRow (.moved outcome.1) then cursor.rowCount + 1 else cursor.rowCount := by
  cases moved <;> rfl

/-! ## Steps -/

/-- A cursor that stands where its answers say. -/
structure InStep (opened : Cursor) (given : List Answer) (cursor : Cursor) : Prop where
  columns : cursor.columns = opened.columns
  counted : cursor.rowCount = given.countP foundRow
  held : (∃ row, cursor.row = .ok row) ↔ lastMove given = some (.moved (.ok true))
  width : ∀ row, cursor.row = .ok row → row.size = cursor.columns.length
  exhausted : lastMove given = some (.moved (.ok false)) → ∃ lines, cursor.stage = .exhausted lines
  closed : cursor.stage = .closed ↔
    lastMove given = some .done ∨ ∃ failure, lastMove given = some (.moved (.error failure))

/-- An answer that is neither to a move nor to closing leaves a cursor in step. -/
theorem still_in_step (step : InStep opened given cursor) (answer : Answer)
    (still : isMove answer = false) : InStep opened (given ++ [answer]) cursor := by
  have last : lastMove (given ++ [answer]) = lastMove given := by
    rw [last_move_append, still]
    rfl
  have count : (given ++ [answer]).countP foundRow = given.countP foundRow := by
    rw [count_append]
    cases answer <;> first | rfl | cases still
  constructor
  · exact step.columns
  · rw [count]
    exact step.counted
  · rw [last]
    exact step.held
  · exact step.width
  · rw [last]
    exact step.exhausted
  · rw [last]
    exact step.closed

private theorem close_in_step (step : InStep opened given cursor) :
    InStep opened (given ++ [.done]) cursor.close := by
  have last : lastMove (given ++ [.done]) = some .done := last_move_append given .done
  constructor
  · exact step.columns
  · rw [count_append]
    exact step.counted
  · simp [last, Cursor.row, Cursor.close]
  · simp [Cursor.row, Cursor.close]
  · simp [last]
  · simp [last, Cursor.close]

private theorem next_in_step (step : InStep opened given cursor) :
    InStep opened (given ++ [.moved cursor.next.1]) cursor.next.2 := by
  have last : ∀ result, lastMove (given ++ [.moved result]) = some (.moved result) :=
    fun result => last_move_append given (.moved result)
  have moved := next_moves cursor
  have columns := (moved_columns moved).trans step.columns
  have counted : cursor.next.2.rowCount =
      (given ++ [Answer.moved cursor.next.1]).countP foundRow := by
    rw [moved_count moved, count_append, step.counted]
  generalize cursor.next = outcome at moved columns counted
  cases moved with
  | closed stage =>
    refine ⟨columns, counted, ?_, step.width, ?_, ?_⟩
    · simp [last, Cursor.row, stage]
    · simp [last]
    · simp [last, stage]
  | exhausted stage =>
    refine ⟨columns, counted, ?_, step.width, fun _ => ⟨_, stage⟩, ?_⟩
    · simp [last, Cursor.row, stage]
    · simp [last, stage]
  | failed failure =>
    refine ⟨columns, counted, ?_, ?_, ?_, ?_⟩
    · simp [last, Cursor.row, Cursor.close]
    · simp [Cursor.row, Cursor.close]
    · simp [last]
    · simp [last, Cursor.close]
  | ended lines =>
    refine ⟨columns, counted, ?_, ?_, fun _ => ⟨lines, rfl⟩, ?_⟩
    · simp [last, Cursor.row]
    · simp [Cursor.row]
    · simp [last]
  | found lines width =>
    refine ⟨columns, counted, ?_, ?_, ?_, ?_⟩
    · simp [last, Cursor.row]
    · simpa [Cursor.row] using width
    · simp [last]
    · simp [last]

private theorem request_in_step (step : InStep opened given cursor) (request : Request) :
    InStep opened (given ++ [(request.perform cursor).1]) (request.perform cursor).2 := by
  cases request with
  | next => exact next_in_step step
  | close => exact close_in_step step
  | row => exact still_in_step step _ rfl
  | values => exact still_in_step step _ rfl
  | columnIndex name => exact still_in_step step _ rfl
  | get getter index =>
    apply still_in_step step
    cases getter <;> rfl

/-- Requests one after the other keep a cursor in step. -/
theorem requests_in_step (step : InStep opened given cursor) (requests : List Request) :
    InStep opened (given ++ answers requests cursor) (after requests cursor) := by
  induction requests generalizing given cursor with
  | nil =>
    rw [answers, observe, List.map_nil, List.append_nil]
    exact step
  | cons request requests ih =>
    have next := ih (request_in_step step request)
    rw [List.append_assoc, List.singleton_append] at next
    exact next

/-- A cursor that has just been opened is in step with no answers. -/
theorem opened_in_step (opened : Cursor.ofFeed feed = .ok cursor) : InStep cursor [] cursor := by
  have none : lastMove [] = none := rfl
  have start : cursor.rowCount = 0 ∧
      ((∃ lines, cursor.stage = .beforeFirst lines) ∨ ∃ lines, cursor.stage = .exhausted lines) := by
    unfold Cursor.ofFeed at opened
    split at opened
    · cases opened
    · cases opened
      exact ⟨rfl, .inr ⟨_, rfl⟩⟩
    · split at opened
      · cases opened
      · cases opened
      · split at opened
        · cases opened
        · cases opened
          exact ⟨rfl, .inl ⟨_, rfl⟩⟩
  obtain ⟨count, ⟨lines, stage⟩ | ⟨lines, stage⟩⟩ := start
  · constructor <;> simp [none, count, Cursor.row, stage]
  · constructor <;> simp [none, count, Cursor.row, stage]

/-! ## Without a row -/

/-- A cursor that answers every reading of a row with a fault of its own, by the index of
a column and by its name: a name leads to an index or is refused likewise. -/
structure Refuses (cursor : Cursor) : Prop where
  reads : ∀ request, readsRow request →
    ∃ fault, failure? (request.perform cursor).1 = some (.cursor fault)
  names : ∀ name failure, cursor.columnIndex name = .error failure →
    ∃ fault, failure = .cursor fault

private theorem row_cases (cursor : Cursor) :
    (∃ row, cursor.row = .ok row) ∨ ∃ fault, cursor.row = .error (.cursor fault) := by
  unfold Cursor.row
  cases cursor.stage with
  | beforeFirst lines => exact .inr ⟨_, rfl⟩
  | onRow row lines => exact .inl ⟨_, rfl⟩
  | exhausted lines => exact .inr ⟨_, rfl⟩
  | closed => exact .inr ⟨_, rfl⟩

private theorem getter_refuses (refused : cursor.row = .error (.cursor fault)) (getter : Getter)
    (index : Nat) : ∃ fault, failure? (getter.ask index cursor) = some (.cursor fault) := by
  have cell : cursor.cell index = .error (.cursor fault) := by
    rw [Cursor.cell, refused]
    rfl
  cases getter with
  | text => exact ⟨fault, by rw [Getter.ask, cell]; rfl⟩
  | isNull => exact ⟨fault, by rw [Getter.ask, Cursor.isNull, cell]; rfl⟩
  | value => exact ⟨fault, by rw [Getter.ask, Cursor.value, cell]; rfl⟩
  | valueAs kind => exact ⟨fault, by rw [Getter.ask, Cursor.valueAs, cell]; rfl⟩
  | items =>
    rw [Getter.ask, Cursor.items]
    cases cursor.columns[index]? with
    | none => exact ⟨.noSuchColumn index, rfl⟩
    | some column => exact ⟨fault, by simp only [cell]; rfl⟩

private theorem name_refused {cursor : Cursor} {failure : Failure}
    (failed : cursor.columnIndex name = .error failure) :
    ∃ fault, failure = .cursor fault := by
  unfold Cursor.columnIndex at failed
  split at failed
  · cases failed
  split at failed
  · cases failed
  · exact ⟨_, (Except.error.inj failed).symm⟩

/-- Where there is no row, every reading of it is refused. -/
theorem refuses_without_row (none : ∀ row, cursor.row ≠ .ok row) : Refuses cursor := by
  rcases row_cases cursor with ⟨row, found⟩ | ⟨fault, refused⟩
  · exact absurd found (none row)
  refine ⟨?_, fun name failure => name_refused⟩
  intro request reads
  cases request with
  | row => exact ⟨fault, by rw [Request.perform, refused]; rfl⟩
  | values => exact ⟨fault, by rw [Request.perform, Cursor.values, refused]; rfl⟩
  | get getter index => exact getter_refuses refused getter index
  | next => cases reads
  | close => cases reads
  | columnIndex name => cases reads

/-! ## Without a way on -/

/-- Requests leave a cursor as it is that does not move, unless one closes it. -/
theorem stays_put {cursor : Cursor} (still : cursor.next.2 = cursor)
    (kept : ∀ request ∈ requests, request = .close → cursor.close = cursor) :
    after requests cursor = cursor := by
  induction requests with
  | nil => rfl
  | cons request requests ih =>
    obtain ⟨here, others⟩ := List.forall_mem_cons.mp kept
    have same : (request.perform cursor).2 = cursor := by
      cases request with
      | next => exact still
      | close => exact here rfl
      | row => rfl
      | values => rfl
      | columnIndex name => rfl
      | get getter index => rfl
    rw [after, List.foldl_cons, same]
    exact ih others

private theorem close_closed {cursor : Cursor} (closed : cursor.stage = .closed) :
    cursor.close = cursor := by
  unfold Cursor.close
  rw [← closed]

/-- Whatever requests an opened cursor is given, it is in step with its answers: it is on a
row, of the width of its columns, exactly when the last move found one and nothing has closed
it since, it has counted the moves that found a row, and it is closed exactly when it was
asked to or the last move failed. Without a row every reading is refused. Once a move has
met the end of the rows, moves meet it again and leave the input as it is, until the cursor
is closed, and no request ever changes a closed cursor. -/
theorem cursor_keeps_step (opened : Cursor.ofFeed feed = .ok cursor) (requests : List Request) :
    let given := answers requests cursor
    let reached := after requests cursor
    InStep cursor given reached ∧
      (lastMove given ≠ some (.moved (.ok true)) → Refuses reached) ∧
      (lastMove given = some (.moved (.ok false)) → reached.next = (.ok false, reached) ∧
        ∀ more, .close ∉ more → after more reached = reached) ∧
      (reached.stage = .closed → reached.next = (.error (.cursor .closed), reached) ∧
        ∀ more, after more reached = reached) := by
  intro given reached
  have step : InStep cursor given reached := by
    simpa using requests_in_step (opened_in_step opened) requests
  refine ⟨step, ?_, ?_, ?_⟩
  · intro rowless
    apply refuses_without_row
    exact fun row found => rowless (step.held.mp ⟨row, found⟩)
  · intro ended
    obtain ⟨lines, stage⟩ := step.exhausted ended
    have next : reached.next = (.ok false, reached) := by
      rw [Cursor.next, stage]
    refine ⟨next, fun more unclosed => stays_put (by rw [next]) ?_⟩
    intro request member closes
    exact absurd (closes ▸ member) unclosed
  · intro closed
    have next : reached.next = (.error (.cursor .closed), reached) := by
      rw [Cursor.next, closed]
    exact ⟨next, fun more => stays_put (by rw [next]) fun _ _ _ => close_closed closed⟩

/-- A row, and a line of two cells under one column: the move to it fails and closes the
cursor, which has counted one row. -/
theorem wide_line_closes :
    let body : Bytes := [97, 10, 105, 110, 116, 10, 55, 10, 56, 9, 57, 10]
    let requests : List Request := [.row, .next, .get .text 0, .next, .next]
    ∃ cursor, Cursor.ofFeed (.plain (.ofBytes body)) = .ok cursor ∧
      InStep cursor (answers requests cursor) (after requests cursor) ∧
      (after requests cursor).stage = .closed ∧ (after requests cursor).rowCount = 1 ∧
      ∀ more, after more (after requests cursor) = after requests cursor := by
  intro body requests
  have shows : (Cursor.ofFeed (.plain (.ofBytes body))).map
      (fun cursor => ((after requests cursor).stage, (after requests cursor).rowCount)) =
        .ok (.closed, 1) := by
    decide +kernel
  cases opened : Cursor.ofFeed (.plain (.ofBytes body)) with
  | error failure =>
    rw [opened] at shows
    cases shows
  | ok cursor =>
    rw [opened] at shows
    obtain ⟨closed, count⟩ := Prod.mk.inj (Except.ok.inj shows)
    obtain ⟨step, -, -, final⟩ := cursor_keeps_step opened requests
    exact ⟨cursor, rfl, step, closed, count, (final closed).2⟩

end SqlWire.CursorStages
