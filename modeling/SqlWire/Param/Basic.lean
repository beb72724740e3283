import SqlWire.Calendar.Zone
import SqlWire.Number.Decimal
import SqlWire.Number.FloatText
import SqlWire.Script.Binding
import SqlWire.Text.Escape

/-! Values bound to parameter markers, and the SQL literals they become. -/
namespace SqlWire

/-- A value for a parameter marker. -/
inductive Param where
  | null
  | bool (value : Bool)
  | int (value : Int64)
  | float (value : Float)
  | decimal (value : Decimal)
  | text (value : Text)
  | date (value : Date)
  | timestamp (value : Timestamp)
  | array (items : List Param)

namespace Param

/-- Whether the value is null. -/
def isNull : Param → Bool
  | .null => true
  | _ => false

mutual

/-- The SQL literal of a value: `\N` for null, one and zero for truth values,
plain notation for numbers, quotes around text, dates and timestamps, and square
brackets around arrays. There is none when a decimal inside it cannot be displayed. -/
def render? : Param → Option Text
  | .null => some ['\\', 'N']
  | .bool value => some (if value then ['1'] else ['0'])
  | .int value => some (Numeral.ofInt value.toInt)
  | .float value => some (FloatText.literal value)
  | .decimal value => value.display?
  | .text value => some (Text.quote value)
  | .date value => some ('\'' :: value.toText ++ ['\''])
  | .timestamp value => some ('\'' :: value.toText ++ ['\''])
  | .array items => (renderAll? items).map fun texts => '[' :: Text.joinWith [','] texts ++ [']']

/-- The SQL literals of a list of values. -/
def renderAll? : List Param → Option (List Text)
  | [] => some []
  | item :: items => do
    let text ← item.render?
    let texts ← renderAll? items
    return text :: texts

end

/-- The text of a scalar without quotes. Null and arrays have none, and a decimal
that cannot be displayed leaves no answer. -/
def plainText? : Param → Option (Option Text)
  | .bool value => some (some (if value then "true".toList else "false".toList))
  | .int value => some (some (Numeral.ofInt value.toInt))
  | .float value => some (some (FloatText.literal value))
  | .decimal value => value.display?.map some
  | .text value => some (some value)
  | .date value => some (some value.toText)
  | .timestamp value => some (some value.toText)
  | .null | .array _ => some none

end Param

/-- The clean text of a statement with its markers replaced by values, the first
value for the first marker. There is no answer when the values are as many as the
markers and one of them has no literal. -/
def Statement.bindValues? (statement : Statement) (values : List Param) :
    Option (Except BindingFault Text) :=
  if values.length ≠ statement.markerCount then
    some (.error (.valueCount statement.markerCount values.length))
  else
    (Param.renderAll? values).map fun literals =>
      statement.bind (Bindings.numberedFrom 1 literals)

end SqlWire
