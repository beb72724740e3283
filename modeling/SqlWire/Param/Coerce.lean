import SqlWire.Param.Basic
import SqlWire.Value.Decode

/-! Converting bound values to what a column of a kind accepts. Numbers are
never taken for truth values, and no conversion to an integer drops a fraction
or leaves the range of the kind. A refusal shows the value, so there is neither
one nor a result where the value has to be shown and cannot be. -/
namespace SqlWire.Param

/-- The range of an integer kind. -/
def fitsKind (target : Kind) (n : Int) : Bool :=
  match target with
  | .smallInt => -32768 ≤ n && n < 32768
  | .integer => -2147483648 ≤ n && n < 2147483648
  | _ => true

/-- What a conversion comes to: a value, a refusal, or nothing where a decimal has
to be displayed and cannot be. -/
abbrev Coerced := Option (Except ConversionFault Param)

/-- The text a value is shown as: its plain text or else its literal. -/
def shown? (value : Param) : Option Text := do
  match ← value.plainText? with
  | some s => return s
  | none => value.render?

/-- Refuse a value. -/
def reject? (value : Param) (target : Kind) (reason : ConversionReason) : Coerced :=
  value.shown?.map fun s => .error ⟨s, target.sqlName, reason⟩

/-- An integer within the range of an integer kind. -/
def withinKind? (value : Param) (target : Kind) (n : Int64) : Coerced :=
  if fitsKind target n.toInt then some (.ok (.int n)) else reject? value target .outOfRange

/-- A value as a truth value: truth values and boolean words. -/
def toBoolean? (value : Param) : Coerced :=
  match value with
  | .bool b => some (.ok (.bool b))
  | .text s =>
    match Value.readBool? s with
    | some b => some (.ok (.bool b))
    | none => reject? value .boolean .notBoolean
  | .int _ | .float _ | .decimal _ => reject? value .boolean .numericForBoolean
  | _ => reject? value .boolean .unsupported

/-- A value as an integer of an integer kind: integers, decimals without a
fraction, and numerals. -/
def toInteger? (target : Kind) (value : Param) : Coerced :=
  match value with
  | .int n => withinKind? value target n
  | .decimal d =>
    if !d.isIntegral then reject? value target .fractional
    else
      match d.truncInt64? with
      | some n => withinKind? value target n
      | none => reject? value target .outOfRange
  | .text s =>
    match Numeral.readInt64 (Text.trim s) with
    | .ok n => withinKind? value target n
    | .error _ => reject? value target .notInteger
  | _ => reject? value target .unsupported

/-- A value as a floating-point number. -/
def toFloat? (target : Kind) (value : Param) : Coerced :=
  match value with
  | .int n => some (.ok (.float (Float.ofInt n.toInt)))
  | .float x => some (.ok (.float x))
  | .decimal d => d.toFloat?.map fun x => .ok (.float x)
  | .text s =>
    match Value.readFloat? s with
    | some x => some (.ok (.float x))
    | none => reject? value target .notNumber
  | _ => reject? value target .unsupported

/-- A value as an exact decimal number. -/
def toDecimal? (value : Param) : Coerced :=
  match value with
  | .int n => some (.ok (.decimal (Decimal.ofInt n.toInt)))
  | .decimal d => some (.ok (.decimal d))
  | .text s => some ((Value.readDecimal s).map .decimal)
  | _ => reject? value .decimal .unsupported

/-- A scalar as its text. -/
def toPlain? (target : Kind) (value : Param) : Coerced := do
  match ← value.plainText? with
  | some s => return .ok (.text s)
  | none => reject? value target .notScalar

/-- A value as a date. -/
def toDate? (value : Param) : Coerced :=
  match value with
  | .date d => some (.ok (.date d))
  | .text s => some ((Value.readDate s).map .date)
  | _ => reject? value .date .unsupported

/-- A value as a timestamp; a date stands for its midnight. -/
def toTimestamp? (value : Param) : Coerced :=
  match value with
  | .timestamp t => some (.ok (.timestamp t))
  | .date d => some (.ok (.timestamp ⟨d, Time.midnight⟩))
  | .text s => some ((Value.readTimestamp s).map .timestamp)
  | _ => reject? value .timestamp .unsupported

/-- The value as what a column of kind `target` stores. Null stays null. -/
def coerce? (value : Param) (target : Kind) : Coerced :=
  match value with
  | .null => some (.ok .null)
  | value =>
    match target with
    | .boolean => toBoolean? value
    | .smallInt | .integer | .bigInt => toInteger? target value
    | .real | .double => toFloat? target value
    | .decimal => toDecimal? value
    | .text | .json | .unknown => toPlain? target value
    | .date => toDate? value
    | .timestamp => toTimestamp? value
    | .array =>
      match value with
      | .array items => some (.ok (.array items))
      | value => reject? value target .unsupported
    | .bytea | .timestampTz | .tuple | .nothing => reject? value target .unsupported

/-- Read a SQL literal back under a column: `\N` is null, a quoted literal is
unquoted, and the rest is decoded like a cell. -/
def readLiteral (literal : Text) (column : Column) : Except ConversionFault Value :=
  let literal := Text.trim literal
  if literal = ['\\', 'N'] then .ok .null
  else
    match (Text.dropLead? ['\''] literal).bind (Text.dropLast? '\'') with
    | some inner => Value.decode column (some (Text.unquote inner))
    | none => Value.decode column (some literal)

end SqlWire.Param
