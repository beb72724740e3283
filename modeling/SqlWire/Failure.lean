import SqlWire.Script.Binding
import SqlWire.Value.Fault
import SqlWire.Wire.BlockReader

/-! Every way an operation on scripts, values, streams and results can fail,
with the words it is reported in. -/
namespace SqlWire

/-- Why a result body does not have its layout: a line of names, a line of
types, and rows as wide as those. -/
inductive LayoutFault where
  | notUtf8 (fault : Text.Utf8Fault)
  | noTypes
  | headerWidths (names types : Nat)
  | rowWidth (cells columns : Nat)
deriving DecidableEq, Repr

def LayoutFault.message : LayoutFault → String
  | .notUtf8 fault => s!"line is not valid UTF-8: {fault.message}"
  | .noTypes => "missing the column types line"
  | .headerWidths names types => s!"{names} column names but {types} column types"
  | .rowWidth cells columns =>
    s!"row has {cells} cells but the header declares {columns} columns"

/-- Why a cursor has no answer where it stands. -/
inductive CursorFault where
  | closed
  | beforeFirst
  | exhausted
  | unknownColumn (name : Text)
  | columnOutOfRange (index columns : Nat)
  | noSuchColumn (index : Nat)
deriving DecidableEq, Repr

def CursorFault.message : CursorFault → String
  | .closed => "cursor is closed"
  | .beforeFirst => "no current row: call next() first"
  | .exhausted => "no current row: result set exhausted"
  | .unknownColumn name => "unknown column '" ++ String.ofList name ++ "'"
  | .columnOutOfRange index columns =>
    s!"column index {index} out of range for {columns} columns"
  | .noSuchColumn index => s!"column index {index} out of range"

/-- A failure of any operation. -/
inductive Failure where
  | script (error : ScriptError)
  | binding (fault : BindingFault)
  | block (fault : Block.Fault)
  | conversion (fault : ConversionFault)
  | layout (fault : LayoutFault)
  | cursor (fault : CursorFault)
  | io (fault : IoFault)
deriving DecidableEq, Repr

namespace Failure

/-- A failure in words, after the name of its class. -/
def message : Failure → String
  | .script error => s!"Syntax error at position {error.position}: {error.fault.message}"
  | .binding fault => "Binding error: " ++ fault.message
  | .block fault => Block.Fault.heading ++ fault.message
  | .conversion fault => fault.message
  | .layout fault => "Malformed result: " ++ fault.message
  | .cursor fault => "Cursor error: " ++ fault.message
  | .io fault => "IO error: " ++ fault.message

/-- A fault of a stream as a failure of the operation that read it. -/
def ofStream : StreamFault → Failure
  | .block fault => .block fault
  | .io fault => .io fault

end Failure

end SqlWire
