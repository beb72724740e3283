import SqlWire.Rows.Cursor

/-! Accessors that hand out more than a cell or a value. One of a kind reads a cell as
that kind, whatever its column, and gives what is inside the value; every accessor can
also be asked by the name of a column. -/
namespace SqlWire

/-- The kinds that have an accessor of their own. -/
inductive Accessor where
  | bool
  | smallInt
  | int
  | bigInt
  | real
  | double
  | decimal
  | date
  | timestamp
deriving DecidableEq, Repr

namespace Accessor

/-- The kind a cell is read as. -/
def kind : Accessor → Kind
  | bool => .boolean
  | smallInt => .smallInt
  | int => .integer
  | bigInt => .bigInt
  | real => .real
  | double => .double
  | decimal => .decimal
  | date => .date
  | timestamp => .timestamp

/-- What is inside the values of the kind. -/
abbrev Content : Accessor → Type
  | bool => Bool
  | smallInt => Int16
  | int => Int32
  | bigInt => Int64
  | real => Float32
  | double => Float
  | decimal => Decimal
  | date => Date
  | timestamp => Timestamp

/-- What is inside a value of the kind. A value of another kind counts as none. -/
def content? : (accessor : Accessor) → Value → Option accessor.Content
  | bool, .bool value => some value
  | smallInt, .smallInt value => some value
  | int, .int value => some value
  | bigInt, .bigInt value => some value
  | real, .real value => some value
  | double, .double value => some value
  | decimal, .decimal value => some value
  | date, .date value => some value
  | timestamp, .timestamp value => some value
  | _, _ => none

/-- The value of the kind with this inside. -/
def toValue : (accessor : Accessor) → accessor.Content → Value
  | bool, value => .bool value
  | smallInt, value => .smallInt value
  | int, value => .int value
  | bigInt, value => .bigInt value
  | real, value => .real value
  | double, value => .double value
  | decimal, value => .decimal value
  | date, value => .date value
  | timestamp, value => .timestamp value

end Accessor

namespace Cursor

/-- What a cell holds when it is read by an accessor. -/
def get (cursor : Cursor) (accessor : Accessor) (index : Nat) :
    Except Failure (Option accessor.Content) :=
  (cursor.valueAs accessor.kind index).map fun value => value.bind accessor.content?

/-- What an accessor gives for the column of a name. -/
def byName {α : Type} (cursor : Cursor) (access : Nat → Except Failure α) (name : Text) :
    Except Failure α := do
  access (← cursor.columnIndex name)

end Cursor

end SqlWire
