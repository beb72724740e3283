import SqlWire.Failure
import SqlWire.Text.Escape

/-! A line of a result body as a row of cells. Raw tabs separate the cells, the
null mark stands for no value, and all other cells are unescaped, so that an
escaped null mark is text. -/
namespace SqlWire

/-- One row of cells, without value where null was written. -/
structure Row where
  cells : List (Option Text)
deriving DecidableEq, Repr

namespace Row

/-- The cell that stands for null. -/
def nullMark : Text := ['\\', 'N']

/-- One cell as it is written. -/
def readCell (cell : Text) : Option Text :=
  if cell = nullMark then none else some (Text.unescape cell)

/-- The row a line holds, if it has `width` cells. -/
def ofLine (line : Text) (width : Nat) : Except LayoutFault Row :=
  let cells := (Text.fields '\t' line).map readCell
  if cells.length = width then .ok ⟨cells⟩ else .error (.rowWidth cells.length width)

def size (row : Row) : Nat := row.cells.length

/-- The text of a cell; none when it is null or there is no such cell. -/
def get? (row : Row) (index : Nat) : Option Text := (row.cells[index]?).join

end Row

end SqlWire
