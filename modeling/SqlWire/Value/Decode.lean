import SqlWire.Value.Basic
import SqlWire.Value.Fault

/-! Decoding a cell under its column. Scalars have one reader per kind; arrays
and tuples are read as a bracketed literal, whose tokens are then decoded under
the element and field columns. -/
namespace SqlWire.Value

/-- Boolean words, in any case and with blanks around them. -/
def readBool? (text : Text) : Option Bool :=
  let word := Text.fold (Text.trim text)
  if ["1", "true", "t", "yes", "y", "on"].any (·.toList == word) then some true
  else if ["0", "false", "f", "no", "n", "off"].any (·.toList == word) then some false
  else none

/-- A number, or one of the words for what is not finite, in any case and with
blanks around it. -/
def readFloat? (text : Text) : Option Float :=
  let text := Text.trim text
  let word := Text.fold text
  if ["nan", "+nan", "-nan"].any (·.toList == word) then some (0.0 / 0.0)
  else if ["inf", "+inf", "infinity", "+infinity"].any (·.toList == word) then some (1.0 / 0.0)
  else if ["-inf", "-infinity"].any (·.toList == word) then some (-1.0 / 0.0)
  else FloatText.readNumeral? text

/-- A hexadecimal digit of either case. -/
def isHexDigit (c : Char) : Bool :=
  c.isDigit || ('a' ≤ c && c ≤ 'f') || ('A' ≤ c && c ≤ 'F')

/-- The value of a hexadecimal digit of either case. -/
def hexValue (c : Char) : Nat :=
  if c.isDigit then c.toNat - '0'.toNat
  else if 'a' ≤ c then c.toNat - 'a'.toNat + 10
  else c.toNat - 'A'.toNat + 10

/-- The bytes that pairs of hexadecimal digits stand for. -/
def hexBytes : Text → Bytes
  | high :: low :: rest => UInt8.ofNat (hexValue high * 16 + hexValue low) :: hexBytes rest
  | _ => []

/-- Bytes written as `\x` and hexadecimal digits; any other text stands for its
own UTF-8 form. -/
def readBytes (text : Text) : Except ConversionReason Bytes :=
  match Text.dropLead? ['\\', 'x'] text with
  | none => .ok (Text.toUtf8 text)
  | some digits =>
    if !digits.all isHexDigit then .error .invalidHexDigit
    else if digits.length % 2 = 1 then .error .oddHexDigits
    else .ok (hexBytes digits)

/-- Name the value and target of a refusal. -/
def refuse {α : Type} (value target : Text) (result : Except ConversionReason α) :
    Except ConversionFault α :=
  result.mapError (⟨value, target, ·⟩)

/-- A date; the text is reported as given. -/
def readDate (text : Text) : Except ConversionFault Date :=
  refuse text Kind.date.sqlName ((Calendar.readDay (Text.trim text)).mapError .calendar)

/-- A timestamp; the text is reported trimmed. -/
def readTimestamp (text : Text) : Except ConversionFault Timestamp :=
  let text := Text.trim text
  refuse text Kind.timestamp.sqlName ((Calendar.readStamp text).mapError .calendar)

/-- A timestamp with an offset; the text is reported trimmed, and only the
timestamp where that is at fault. -/
def readTimestampTz (text : Text) : Except ConversionFault ZonedTimestamp :=
  (Calendar.readZoned (Text.trim text)).mapError fun refusal =>
    ⟨refusal.text, Kind.timestampTz.sqlName, .calendar refusal.fault⟩

/-- An exact decimal number; the text is reported as given. -/
def readDecimal (text : Text) : Except ConversionFault Decimal :=
  refuse text Kind.decimal.sqlName ((Decimal.ofText text).mapError .decimal)

/-- A cell of a kind that does not nest. Cells of a nesting kind are for
`decode`; here they are refused. -/
def decodeScalar (kind : Kind) (text : Text) : Except ConversionFault Value :=
  let refused {α : Type} (reason : ConversionReason) : Except ConversionFault α :=
    .error ⟨text, kind.sqlName, reason⟩
  let number {α : Type} (result : Except Numeral.IntegerFault α) : Except ConversionFault α :=
    refuse text kind.sqlName (result.mapError .integer)
  match kind with
  | .boolean =>
    match readBool? text with
    | some value => .ok (.bool value)
    | none => refused .notBoolean
  | .smallInt => (number (Numeral.readInt16 (Text.trim text))).map .smallInt
  | .integer => (number (Numeral.readInt32 (Text.trim text))).map .int
  | .bigInt => (number (Numeral.readInt64 (Text.trim text))).map .bigInt
  | .real =>
    match readFloat? text with
    | some value => .ok (.real value.toFloat32)
    | none => refused .notNumber
  | .double =>
    match readFloat? text with
    | some value => .ok (.double value)
    | none => refused .notNumber
  | .decimal => (readDecimal text).map .decimal
  | .text | .unknown => .ok (.text text)
  | .json => .ok (.json text)
  | .bytea => (refuse text Kind.bytea.sqlName (readBytes text)).map .bytes
  | .date => (readDate text).map .date
  | .timestamp => (readTimestamp text).map .timestamp
  | .timestampTz => (readTimestampTz text).map .timestampTz
  | .nothing => .ok .null
  | .array | .tuple => refused .notBracketed

mutual

/-- A node of a literal under its column. -/
def ofLiteral (column : Column) : Literal → Except ConversionFault Value
  | .bare token =>
    if (Literal.bare token).isNull then .ok .null else ofToken column token
  | .quoted token => ofToken column token
  | .list items =>
    if column.kind = .array then (ofItems column.element items).map .array
    else .error ⟨(Literal.list items).shown, column.typeName, .nested⟩
  | .group items =>
    if column.kind = .tuple then
      if items.length = column.fields.length then (ofFields column.fields items).map .tuple
      else
        .error ⟨(Literal.group items).shown, column.typeName,
          .fieldCount column.fields.length items.length⟩
    else .error ⟨(Literal.group items).shown, column.typeName, .nested⟩

/-- A token under its column. -/
def ofToken (column : Column) (token : Text) : Except ConversionFault Value :=
  if column.kind = .array ∨ column.kind = .tuple then
    .error ⟨token, column.typeName, .notBracketed⟩
  else decodeScalar column.kind token

/-- The items of a list, all under one element column. -/
def ofItems (element : Column) : List Literal → Except ConversionFault (List Value)
  | [] => .ok []
  | item :: items => do
    let value ← ofLiteral element item
    let values ← ofItems element items
    .ok (value :: values)

/-- The items of a group, each under the field column at its place. -/
def ofFields : List Column → List Literal → Except ConversionFault (List Value)
  | field :: fields, item :: items => do
    let value ← ofLiteral field item
    let values ← ofFields fields items
    .ok (value :: values)
  | _, _ => .ok []

end

/-- The text of a cell under its column. -/
def decodeText (column : Column) (text : Text) : Except ConversionFault Value :=
  if column.kind = .array ∨ column.kind = .tuple then
    match Literal.read text with
    | .ok literal => ofLiteral column literal
    | .error fault => .error ⟨text, column.typeName, .literal fault⟩
  else decodeScalar column.kind text

/-- A cell under its column. A null cell is null whatever the column. -/
def decode (column : Column) : Option Text → Except ConversionFault Value
  | none => .ok .null
  | some cell => decodeText column cell

end SqlWire.Value
