import SqlWire.Calendar.Reading
import SqlWire.Number.Decimal
import SqlWire.Value.Literal

/-! Why a value cannot be had in the kind asked for. -/
namespace SqlWire

/-- The reason a conversion is refused. -/
inductive ConversionReason where
  | notBoolean
  | numericForBoolean
  | outOfRange
  | fractional
  | notInteger
  | notNumber
  | notScalar
  | unsupported
  | invalidHexDigit
  | oddHexDigits
  /-- A token stands where an array or tuple is needed. -/
  | notBracketed
  /-- A list or group stands where it has no place. -/
  | nested
  | fieldCount (expected found : Nat)
  | integer (fault : Numeral.IntegerFault)
  | decimal (fault : Decimal.Fault)
  | calendar (fault : Calendar.Fault)
  | literal (fault : Literal.Fault)
  /-- The column asked for as an array is of another type. -/
  | columnType (name typeName : Text)
deriving DecidableEq, Repr

def ConversionReason.message : ConversionReason → String
  | .notBoolean => "not a boolean"
  | .numericForBoolean => "numeric values cannot be bound to a boolean"
  | .outOfRange => "out of range"
  | .fractional => "has a fractional part"
  | .notInteger => "not an integer"
  | .notNumber => "not a number"
  | .notScalar => "not a scalar"
  | .unsupported => "unsupported conversion"
  | .invalidHexDigit => "invalid hex digit"
  | .oddHexDigits => "odd number of hex digits"
  | .notBracketed => "expected a bracketed literal"
  | .nested => "unexpected nested literal"
  | .fieldCount expected found => s!"expected {expected} fields, found {found}"
  | .integer fault => fault.message
  | .decimal fault => fault.message
  | .calendar fault => fault.message
  | .literal fault => fault.message
  | .columnType name typeName =>
    "column '" ++ String.ofList name ++ "' is " ++ String.ofList typeName

/-- A refused conversion: the text of the value, the type it was wanted in, and
the reason. -/
structure ConversionFault where
  value : Text
  target : Text
  reason : ConversionReason
deriving DecidableEq, Repr

def ConversionFault.message (fault : ConversionFault) : String :=
  "Cannot convert '" ++ String.ofList fault.value ++ "' to " ++ String.ofList fault.target ++
    ": " ++ fault.reason.message

end SqlWire
