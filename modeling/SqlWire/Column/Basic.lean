import SqlWire.Column.Kind
import SqlWire.Number.Numeral

/-! A result column: a heading (name, type as declared, nullability) and a
type. Types nest through arrays and tuples, and each element and field is a
column of its own. -/
namespace SqlWire

/-- What the header says about a column besides its type. -/
structure Heading where
  name : Text := []
  /-- The type exactly as declared. -/
  declared : Text := []
  nullable : Bool := false
deriving DecidableEq, Repr

/-- A result column. `plain` covers every kind that was named without
parameters, including arrays without an element type. -/
inductive Column where
  | plain (heading : Heading) (kind : Kind)
  | decimal (heading : Heading) (precision scale : Nat)
  /-- A timestamp with a declared number of sub-second digits. -/
  | timestamp (heading : Heading) (digits : Nat)
  | array (heading : Heading) (element : Column)
  | tuple (heading : Heading) (fields : List Column)
deriving Repr

namespace Column

/-- A nameless column of a kind that cannot be null. -/
def ofKind (kind : Kind) : Column := .plain {} kind

/-- A nameless array of `element`. -/
def arrayOf (element : Column) : Column := .array {} element

/-- A nameless tuple of `fields`. -/
def tupleOf (fields : List Column) : Column := .tuple {} fields

/-- A nameless decimal column. -/
def decimalOf (precision scale : Nat) : Column := .decimal {} precision scale

def heading : Column → Heading
  | .plain heading _ => heading
  | .decimal heading _ _ => heading
  | .timestamp heading _ => heading
  | .array heading _ => heading
  | .tuple heading _ => heading

/-- The same type under another heading. -/
def withHeading (column : Column) (heading : Heading) : Column :=
  match column with
  | .plain _ kind => .plain heading kind
  | .decimal _ precision scale => .decimal heading precision scale
  | .timestamp _ digits => .timestamp heading digits
  | .array _ element => .array heading element
  | .tuple _ fields => .tuple heading fields

/-- The column under a name, with the type it was declared by. -/
def declaredAs (column : Column) (name declared : Text) : Column :=
  column.withHeading { column.heading with name, declared }

/-- The column with null added when `nullable` is set. -/
def orNull (column : Column) (nullable : Bool) : Column :=
  column.withHeading
    { column.heading with nullable := column.heading.nullable || nullable }

def name (column : Column) : Text := column.heading.name

def declared (column : Column) : Text := column.heading.declared

def nullable (column : Column) : Bool := column.heading.nullable

def kind : Column → Kind
  | .plain _ kind => kind
  | .decimal .. => .decimal
  | .timestamp .. => .timestamp
  | .array .. => .array
  | .tuple .. => .tuple

/-- Significant digits of a decimal column. -/
def precision? : Column → Option Nat
  | .decimal _ precision _ => some precision
  | _ => none

/-- Fractional digits of a decimal column, or sub-second digits of a timestamp. -/
def scale? : Column → Option Nat
  | .decimal _ _ scale => some scale
  | .timestamp _ digits => some digits
  | _ => none

/-- The element column of an array. -/
def element? : Column → Option Column
  | .array _ element => some element
  | _ => none

/-- The field columns of a tuple. -/
def fields : Column → List Column
  | .tuple _ fields => fields
  | _ => []

/-- The element column of an array; an array declared without one holds text. -/
def element (column : Column) : Column := column.element?.getD (ofKind .unknown)

/-- Number of nested array levels. -/
def arrayDepth : Column → Nat
  | .array _ element => 1 + element.arrayDepth
  | _ => 0

/-- The kind inside all array levels. -/
def baseKind : Column → Kind
  | .array _ element => element.baseKind
  | column => column.kind

mutual

/-- The compact name of the whole type, such as `ARRAY(ARRAY(INTEGER))`. -/
def typeName : Column → Text
  | .plain _ .tuple => "TUPLE()".toList
  | .plain _ kind => kind.sqlName
  | .decimal _ precision scale =>
    "DECIMAL(".toList ++ Numeral.ofNat precision ++ ',' :: Numeral.ofNat scale ++ [')']
  | .timestamp .. => Kind.timestamp.sqlName
  | .array _ element => "ARRAY(".toList ++ element.typeName ++ [')']
  | .tuple _ fields => "TUPLE(".toList ++ Text.joinWith [',', ' '] (typeNames fields) ++ [')']

/-- The compact names of the types of a list of columns. -/
def typeNames : List Column → List Text
  | [] => []
  | column :: columns => column.typeName :: typeNames columns

end

end Column

end SqlWire
