import SqlWire.Column.TypeName
import SqlWire.Rows.Lines
import SqlWire.Rows.Row
import SqlWire.Value.Decode

/-! A cursor over a result body: a line of column names, a line of their types,
and a line a row. It moves forward only and holds one row. Any failure to move
closes it, and a closed cursor has let go of its input and its row. -/
namespace SqlWire

/-- Where a cursor stands. -/
inductive Stage where
  | beforeFirst (lines : Lines)
  | onRow (row : Row) (lines : Lines)
  /-- The rows have run out; the input is kept until the cursor is closed. -/
  | exhausted (lines : Lines)
  | closed
deriving DecidableEq, Repr

/-- A cursor over a result. -/
structure Cursor where
  columns : List Column
  stage : Stage
  /-- Rows read so far. -/
  rowCount : Nat

namespace Cursor

/-- A line as text. -/
def readLine (lines : Lines) : Except Failure (Option Text) × Lines :=
  match lines.next with
  | (.error fault, lines) => (.error (.ofStream fault), lines)
  | (.ok none, lines) => (.ok none, lines)
  | (.ok (some line), lines) =>
    match Text.ofUtf8 line with
    | .error fault => (.error (.layout (.notUtf8 fault)), lines)
    | .ok text => (.ok (some text), lines)

/-- The columns that a line of names and a line of types declare. -/
def readColumns (names types : Text) : Except LayoutFault (List Column) :=
  let names := Text.fields '\t' names
  let types := Text.fields '\t' types
  if names.length = types.length then
    .ok (List.zipWith
      (fun name type => Column.ofDeclaration (Text.unescape name) (Text.unescape type)) names types)
  else .error (.headerWidths names.length types.length)

/-- Open a cursor over a body. An empty body is a result without columns and
rows. -/
def ofFeed (feed : Feed) : Except Failure Cursor :=
  match readLine (Lines.ofFeed feed) with
  | (.error failure, _) => .error failure
  | (.ok none, lines) => .ok ⟨[], .exhausted lines, 0⟩
  | (.ok (some names), lines) =>
    match readLine lines with
    | (.error failure, _) => .error failure
    | (.ok none, _) => .error (.layout .noTypes)
    | (.ok (some types), lines) =>
      match readColumns names types with
      | .error fault => .error (.layout fault)
      | .ok columns => .ok ⟨columns, .beforeFirst lines, 0⟩

/-- Let go of the input and the row. -/
def close (cursor : Cursor) : Cursor := { cursor with stage := .closed }

def isClosed (cursor : Cursor) : Bool := cursor.stage = .closed

/-- Read the next row from the input. -/
def advance (cursor : Cursor) (lines : Lines) : Except Failure Bool × Cursor :=
  match readLine lines with
  | (.error failure, _) => (.error failure, cursor.close)
  | (.ok none, lines) => (.ok false, { cursor with stage := .exhausted lines })
  | (.ok (some line), lines) =>
    match Row.ofLine line cursor.columns.length with
    | .error fault => (.error (.layout fault), cursor.close)
    | .ok row =>
      (.ok true, { cursor with stage := .onRow row lines, rowCount := cursor.rowCount + 1 })

/-- Move to the next row; false once the rows have run out. -/
def next (cursor : Cursor) : Except Failure Bool × Cursor :=
  match cursor.stage with
  | .closed => (.error (.cursor .closed), cursor)
  | .exhausted _ => (.ok false, cursor)
  | .beforeFirst lines | .onRow _ lines => cursor.advance lines

/-- The row the cursor is on. -/
def row (cursor : Cursor) : Except Failure Row :=
  match cursor.stage with
  | .onRow row _ => .ok row
  | .beforeFirst _ => .error (.cursor .beforeFirst)
  | .exhausted _ => .error (.cursor .exhausted)
  | .closed => .error (.cursor .closed)

/-- The index of the first column of this name, or else of the first whose name
differs in the case of ASCII letters only. -/
def columnIndex (cursor : Cursor) (name : Text) : Except Failure Nat :=
  match cursor.columns.findIdx? (·.name == name) with
  | some index => .ok index
  | none =>
    match cursor.columns.findIdx? (Text.sameFolded ·.name name) with
    | some index => .ok index
    | none => .error (.cursor (.unknownColumn name))

/-- The text of a cell of the current row. -/
def cell (cursor : Cursor) (index : Nat) : Except Failure (Option Text) := do
  let row ← cursor.row
  if index < row.size then .ok (row.get? index)
  else .error (.cursor (.columnOutOfRange index row.size))

/-- Whether a cell was written as null. -/
def isNull (cursor : Cursor) (index : Nat) : Except Failure Bool :=
  (cursor.cell index).map Option.isNone

/-- Decode cells under their columns, the leftmost fault first. A cell that is
missing has no value. -/
def decodeCells : List Column → List (Option Text) → Except ConversionFault (List Value)
  | [], _ => .ok []
  | column :: columns, cells => do
    let value ← Value.decode column cells.head?.join
    let values ← decodeCells columns cells.tail
    .ok (value :: values)

/-- The current row decoded under the declared columns. -/
def values (cursor : Cursor) : Except Failure (List Value) := do
  let row ← cursor.row
  (decodeCells cursor.columns row.cells).mapError .conversion

/-- A value, unless it is null. -/
def nonNull? : Value → Option Value
  | .null => none
  | value => some value

/-- A cell decoded under its declared column. -/
def value (cursor : Cursor) (index : Nat) : Except Failure (Option Value) := do
  let cell ← cursor.cell index
  let column := cursor.columns.getD index (Column.ofKind .unknown)
  ((Value.decode column cell).map nonNull?).mapError .conversion

/-- A cell decoded as a kind, whatever its column. -/
def valueAs (cursor : Cursor) (kind : Kind) (index : Nat) : Except Failure (Option Value) := do
  match ← cursor.cell index with
  | none => .ok none
  | some cell => ((Value.decodeText (Column.ofKind kind) cell).map some).mapError .conversion

/-- The items of a cell of an array column. -/
def items (cursor : Cursor) (index : Nat) : Except Failure (Option (List Value)) :=
  match cursor.columns[index]? with
  | none => .error (.cursor (.noSuchColumn index))
  | some column => do
    let cell ← cursor.cell index
    if column.kind = .array then
      match ← (Value.decode column cell).mapError .conversion with
      | .array items => .ok (some items)
      | _ => .ok none
    else
      .error (.conversion ⟨cell.getD Row.nullMark, Kind.array.sqlName,
        .columnType column.name column.typeName⟩)

end Cursor

end SqlWire
