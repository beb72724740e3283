import SqlWire.Rows.Cursor
import SqlWire.Script.Analysis
import SqlWire.Value.Json
import SqlWire.Wire.Digest

/-! What the commands print: a script statement by statement, rows as a table or
as JSON, the digest of a file, and the sizes of a compressed one. -/
namespace SqlWire.Report

/-- Lines, each with its line break. -/
def lines (parts : List Text) : Text := parts.flatMap (· ++ ['\n'])

/-- The word for a kind of statement. -/
def kindWord : StatementKind → Text
  | .query .. => "QUERY".toList
  | .nonQuery => "NON_QUERY".toList
  | .setParameter .. => "SET".toList

/-- What is known about a statement from its kind. -/
def kindLines : StatementKind → List Text
  | .query database table =>
    (database.map ("  Database: ".toList ++ ·)).toList ++ (table.map ("  Table: ".toList ++ ·)).toList
  | .nonQuery => []
  | .setParameter key value => ["  Param: ".toList ++ key ++ " = ".toList ++ value]

/-- A marker with its place. -/
def marker (m : Marker) : Text := '?' :: Numeral.ofNat m.id ++ '@' :: Numeral.ofNat m.offset

/-- The lines about one statement, the `number`th. -/
def statement (number : Nat) (s : Statement) : List Text :=
  let head := '[' :: Numeral.ofNat number ++ ']' :: ' ' :: kindWord s.kind ++ " bytes ".toList ++
    Numeral.ofNat s.start ++ '.' :: '.' :: Numeral.ofNat s.stop
  let markers :=
    if s.markers.isEmpty then []
    else ["  Markers: ".toList ++ Text.joinWith [' '] (s.markers.map marker)]
  head :: kindLines s.kind ++ markers ++ [' ' :: ' ' :: s.clean]

/-- A script, statement by statement, and its totals. -/
def script (s : Script) : Text :=
  if s.statements.isEmpty then lines ["(no statements)".toList]
  else
    lines ((s.statements.zipIdx 1).flatMap fun (s, number) => statement number s) ++
      lines [[], Numeral.ofNat s.statements.length ++ " statement(s), ".toList ++
        Numeral.ofNat s.totalMarkers ++ " marker(s)".toList]

/-- The width of each column of a table: that of its widest cell. -/
def widths (columns : List Column) (cells : List (List Text)) : List Nat :=
  cells.foldl (fun widths row => List.zipWith (fun width cell => max width cell.length) widths row)
    (columns.map fun column => max column.name.length column.typeName.length)

/-- Cells between bars. -/
def barred (cells : List Text) : Text := Text.joinWith " │ ".toList cells

/-- Rows below the names and types of their columns. Numbers stand to the right. A value that
cannot be displayed has no cell, and a column wider than a cell can be filled up to no table. -/
def table? (columns : List Column) (rows : List (List Value)) : Option Text :=
  if columns.isEmpty then some (lines ["(empty result)".toList])
  else do
    let cells ← rows.mapM Value.displayAll?
    let widths := widths columns cells
    if widths.any (Text.fillLimit < ·) then none
    else
      let left (texts : List Text) : Text :=
        barred (List.zipWith (fun width text => Text.padRight width ' ' text) widths texts)
      let row (texts : List Text) : Text :=
        barred (List.zipWith
          (fun (column, width) text =>
            if column.kind.isNumeric then Text.padLeft width ' ' text
            else Text.padRight width ' ' text) (columns.zip widths) texts)
      let rule := Text.joinWith "─┼─".toList (widths.map fun width => Text.repeated width '─')
      return lines ([left (columns.map Column.name), left (columns.map Column.typeName), rule] ++
        cells.map row ++ [[], Numeral.ofNat rows.length ++ " row(s) returned".toList])

/-- A row as a JSON object. -/
def object? (columns : List Column) (row : List Value) : Option Json :=
  let member? : Column × Value → Option (Text × Json)
    | (column, value) => value.toJson?.map (column.name, ·)
  ((columns.zip row).mapM member?).map Json.ofMembers

/-- Rows as a JSON array of objects. Nothing is written when a value cannot be displayed. -/
def json? (columns : List Column) (rows : List (List Value)) : Option Text :=
  (rows.mapM (object? columns)).map fun objects => lines [(Json.array objects).pretty 0]

/-- A digest as thirty-two hexadecimal digits. -/
def digest (pair : Digest.Pair) : Text :=
  lines [Numeral.hex 16 pair.low.toNat ++ Numeral.hex 16 pair.high.toNat]

/-- The sizes before and after compressing. -/
def compressed (plain written blocks : Nat) : Text :=
  lines ["✓ ".toList ++ Numeral.ofNat plain ++ " bytes -> ".toList ++ Numeral.ofNat written ++
    " bytes in ".toList ++ Numeral.ofNat blocks ++ " block(s)".toList]

end SqlWire.Report
