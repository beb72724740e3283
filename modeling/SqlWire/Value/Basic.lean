import SqlWire.Column.Basic
import SqlWire.Calendar.Zone
import SqlWire.Number.Decimal
import SqlWire.Number.FloatText
import SqlWire.Text.Utf8

/-! Typed values of cells, what they are displayed as, and which values a column
admits. -/
namespace SqlWire

/-- A decoded cell. -/
inductive Value where
  | null
  | bool (value : Bool)
  | smallInt (value : Int16)
  | int (value : Int32)
  | bigInt (value : Int64)
  | real (value : Float32)
  | double (value : Float)
  | decimal (value : Decimal)
  | text (value : Text)
  | bytes (value : Bytes)
  | date (value : Date)
  | timestamp (value : Timestamp)
  | timestampTz (value : ZonedTimestamp)
  | array (items : List Value)
  | tuple (items : List Value)
  /-- A JSON document, kept as the text it came as. -/
  | json (value : Text)

namespace Value

/-- Whether the value is null. -/
def isNull : Value → Bool
  | .null => true
  | _ => false

/-- The words for truth values. -/
def boolText (value : Bool) : Text := if value then "true".toList else "false".toList

/-- A byte string as `\x` and lower-case hexadecimal digits. -/
def bytesText (bytes : Bytes) : Text :=
  '\\' :: 'x' :: bytes.flatMap fun b => Numeral.hex 2 b.toNat

mutual

/-- The text a value is displayed as. There is none when a decimal inside it cannot
be displayed. -/
def display? : Value → Option Text
  | .null => some "NULL".toList
  | .bool value => some (boolText value)
  | .smallInt value => some (Numeral.ofInt value.toInt)
  | .int value => some (Numeral.ofInt value.toInt)
  | .bigInt value => some (Numeral.ofInt value.toInt)
  | .real value => some (FloatText.single value)
  | .double value => some (FloatText.double value)
  | .decimal value => value.display?
  | .text value => some value
  | .json value => some value
  | .bytes value => some (bytesText value)
  | .date value => some value.toText
  | .timestamp value => some value.toText
  | .timestampTz value => some value.toText
  | .array items => (displayAll? items).map fun texts => '[' :: Text.joinWith [','] texts ++ [']']
  | .tuple items => (displayAll? items).map fun texts => '(' :: Text.joinWith [','] texts ++ [')']

/-- The texts that a list of values is displayed as. -/
def displayAll? : List Value → Option (List Text)
  | [] => some []
  | item :: items => do
    let text ← item.display?
    let texts ← displayAll? items
    return text :: texts

end

end Value

end SqlWire
