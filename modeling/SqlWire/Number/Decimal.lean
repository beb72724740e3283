import SqlWire.Number.Numeral
import SqlWire.Text.Blank

/-! Exact decimal numbers: an unscaled integer and a scale, so that `1.50` and
`1.5` are different values and nothing is ever rounded. Each pair has one form in
plain notation, and that form reads back to the same pair. It is what the decimal
is displayed as, where zeros can fill the places behind its point. -/
namespace SqlWire

/-- The number `unscaled * 10 ^ (-scale)`. -/
structure Decimal where
  unscaled : Int
  /-- Digits after the decimal point. -/
  scale : UInt32
deriving DecidableEq, Repr

namespace Decimal

/-- An integer without fractional digits. -/
def ofInt (n : Int) : Decimal := ⟨n, 0⟩

/-- The digits of the unscaled value, `0` for zero. -/
def digits (d : Decimal) : Text := Numeral.ofNat d.unscaled.natAbs

/-- Number of significant digits of the unscaled value. -/
def precision (d : Decimal) : UInt32 := UInt32.ofNat d.digits.length

/-- The value truncated towards zero. Nothing stands before the point when the
digits do not outnumber the places behind it. -/
def trunc (d : Decimal) : Int :=
  if d.scale.toNat < d.digits.length then d.unscaled.tdiv (Int.pow 10 d.scale.toNat) else 0

/-- The value truncated towards zero, when that fits 64 bits. -/
def truncInt64? (d : Decimal) : Option Int64 :=
  if -9223372036854775808 ≤ d.trunc ∧ d.trunc < 9223372036854775808 then
    some (Int64.ofInt d.trunc)
  else none

/-- No fractional digits other than zeros. -/
def isIntegral (d : Decimal) : Bool :=
  d.unscaled = 0 ||
    (d.scale.toNat < d.digits.length && d.unscaled.natAbs % Nat.pow 10 d.scale.toNat = 0)

/-- Plain notation with exactly `scale` digits after the point. -/
def toText (d : Decimal) : Text :=
  let places := d.scale.toNat
  let padded := Text.padLeft (places + 1) '0' d.digits
  let whole := padded.take (padded.length - places)
  let fraction := padded.drop (padded.length - places)
  let body := if places = 0 then whole else whole ++ '.' :: fraction
  if d.unscaled < 0 then '-' :: body else body

/-- The text a decimal is displayed as: its plain notation. Where no digit reaches
beyond the point, zeros fill up the fraction, and there is nothing to display when
it has more places than can be filled. -/
def display? (d : Decimal) : Option Text :=
  if d.scale.toNat < d.digits.length ∨ d.scale.toNat ≤ Text.fillLimit then some d.toText
  else none

/-- The largest exponent, of either sign, that scientific notation may have. -/
def maxExponent : Nat := 4096

/-- Why a text is no decimal number. -/
inductive Fault where
  | invalidExponent
  | exponentOutOfRange
  | noDigits
  | notANumber
deriving DecidableEq, Repr

def Fault.message : Fault → String
  | .invalidExponent => "invalid exponent"
  | .exponentOutOfRange => "exponent out of range"
  | .noDigits => "no digits"
  | .notANumber => "not a number"

/-- Split a sign off: whether it is a minus, and the rest. -/
def readSign : Text → Bool × Text
  | '-' :: body => (true, body)
  | '+' :: body => (false, body)
  | body => (false, body)

/-- The exponent behind an `e`. -/
def readExponent (text : Text) : Except Fault Int :=
  match Numeral.readInteger (-9223372036854775808) 9223372036854775807 text with
  | .error _ => .error .invalidExponent
  | .ok exponent =>
    if exponent.natAbs ≤ maxExponent then .ok exponent else .error .exponentOutOfRange

/-- The mantissa and the exponent of a number in plain or scientific notation. -/
def readParts (body : Text) : Except Fault (Text × Int) :=
  match Text.cutAt (fun c => c = 'e' || c = 'E') body with
  | none => .ok (body, 0)
  | some (mantissa, exponent) => (readExponent exponent).map (mantissa, ·)

/-- Place `whole.fraction * 10 ^ exponent` on a grid of non-negative scale: a
positive excess of the exponent becomes zeros at the end of the digits. Of the
scale the lowest 32 bits are kept. -/
def place (negative : Bool) (whole fraction : Text) (exponent : Int) : Decimal :=
  let scale : Int := fraction.length - exponent
  let magnitude := Numeral.value (whole ++ fraction) * Nat.pow 10 (-scale).toNat
  ⟨if negative then -magnitude else magnitude, UInt32.ofNat scale.toNat⟩

/-- Read plain (`-12.340`) or scientific (`1.5E+3`) notation, blanks around it
allowed. -/
def ofText (text : Text) : Except Fault Decimal := do
  let (negative, body) := readSign (Text.trim text)
  let (mantissa, exponent) ← readParts body
  let (whole, fraction) := (Text.cutAt (· = '.') mantissa).getD (mantissa, [])
  if whole.isEmpty && fraction.isEmpty then .error .noDigits
  else if !(whole ++ fraction).all Char.isDigit then .error .notANumber
  else .ok (place negative whole fraction exponent)

end Decimal

end SqlWire
