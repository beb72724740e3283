import SqlWire.Number.Shortest
import SqlWire.Number.Decimal

/-! Text of floating-point numbers. Cells and SQL literals use plain notation
without an exponent; JSON uses a point everywhere and an exponent for very
large and very small numbers. Both write the fewest digits that identify the
number. Reading takes plain and scientific notation and rounds correctly. -/
namespace SqlWire.FloatText

/-- What a floating-point number is, sign apart. -/
inductive Magnitude where
  | zero
  | finite (value : Binary)
  | infinite
  | nan
deriving DecidableEq, Repr

/-- A number taken apart into sign and magnitude. -/
structure Parts where
  negative : Bool
  magnitude : Magnitude
deriving DecidableEq, Repr

/-- The parts of a double-precision number. -/
def ofDouble (x : Float) : Parts :=
  let bits := x.toBits
  let negative := 0x8000000000000000 ≤ bits.toNat
  let rest := bits.toNat % 0x8000000000000000
  if rest = 0 then ⟨negative, .zero⟩
  else if rest < 0x7FF0000000000000 then ⟨negative, .finite (Binary.ofDoubleBits bits)⟩
  else if rest = 0x7FF0000000000000 then ⟨negative, .infinite⟩
  else ⟨negative, .nan⟩

/-- The parts of a single-precision number. -/
def ofSingle (x : Float32) : Parts :=
  let bits := x.toBits
  let negative := 0x80000000 ≤ bits.toNat
  let rest := bits.toNat % 0x80000000
  if rest = 0 then ⟨negative, .zero⟩
  else if rest < 0x7F800000 then ⟨negative, .finite (Binary.ofSingleBits bits)⟩
  else if rest = 0x7F800000 then ⟨negative, .infinite⟩
  else ⟨negative, .nan⟩

/-- A text behind a minus sign when the number is negative. -/
def signed (negative : Bool) (text : Text) : Text :=
  if negative then '-' :: text else text

/-- Digits and exponent in plain notation; an integer has no point. -/
def positional (s : Scientific) : Text :=
  let digits := Numeral.ofNat s.digits
  let point : Int := digits.length + s.exponent
  if point ≤ 0 then '0' :: '.' :: Text.repeated (-point).toNat '0' ++ digits
  else if digits.length ≤ point then digits ++ Text.repeated (point - digits.length).toNat '0'
  else digits.take point.toNat ++ '.' :: digits.drop point.toNat

/-- Plain notation, with the three words for what is not finite. -/
def plain (parts : Parts) : Text :=
  match parts.magnitude with
  | .nan => "NaN".toList
  | .infinite => signed parts.negative "inf".toList
  | .zero => signed parts.negative ['0']
  | .finite x => signed parts.negative (positional (x.shortest .up))

/-- The printed form of a double-precision cell. -/
def double (x : Float) : Text := plain (ofDouble x)

/-- The printed form of a single-precision cell. -/
def single (x : Float32) : Text := plain (ofSingle x)

/-- The SQL literal of a double-precision number: plain notation, and the words
`nan`, `inf` and `-inf`. -/
def literal (x : Float) : Text :=
  match (ofDouble x).magnitude with
  | .nan => "nan".toList
  | _ => double x

/-- Scientific notation: one digit before the point, no point when no digit
follows, and a signed exponent. -/
def scientific (digits : Text) (leading : Int) : Text :=
  let mantissa :=
    match digits with
    | [] => []
    | [d] => [d]
    | d :: rest => d :: '.' :: rest
  let sign := if leading < 0 then '-' else '+'
  mantissa ++ 'e' :: sign :: Numeral.ofNat leading.natAbs

/-- JSON notation of a positive number: positional while the leading digit
stands between `10 ^ -5` and `10 ^ 15`, always with a point, else scientific. -/
def jsonDigits (s : Scientific) : Text :=
  let digits := Numeral.ofNat s.digits
  let leading : Int := digits.length + s.exponent - 1
  if -5 ≤ leading ∧ leading ≤ 15 then
    if 0 ≤ s.exponent then positional s ++ ['.', '0'] else positional s
  else scientific digits leading

/-- The JSON number of a finite double-precision number. -/
def json? (x : Float) : Option Text :=
  let parts := ofDouble x
  match parts.magnitude with
  | .nan | .infinite => none
  | .zero => some (signed parts.negative ['0', '.', '0'])
  | .finite b => some (signed parts.negative (jsonDigits (b.shortest .toEven)))

/-- More digits than a number halfway between two neighbouring doubles can
have. -/
def enoughDigits : Nat := 800

/-- Digits cut off behind enough of them. A rest that is not all zeros leaves a
one behind, which keeps the number on its side of every halfway point. -/
def shorten (digits : Text) : Text :=
  digits.take enoughDigits ++
    if (digits.drop enoughDigits).all (· = '0') then [] else ['1']

/-- The double nearest to `numerator / denominator`, which has more bits before the point than
a double keeps. What is behind the point only sets the last of them. -/
def nearestQuotient (numerator denominator : Nat) : Float :=
  let quotient := numerator / denominator
  Float.ofNat (if numerator % denominator = 0 then quotient else quotient ||| 1)

/-- The double nearest to a whole number, given by its digits, times
`10 ^ exponent`. Magnitudes that every double exceeds or that exceed every double
are decided by the place of the leading digit alone, so no number is larger than
a double with all its digits. -/
def nearestDouble (digits : Text) (exponent : Int) : Float :=
  let digits := digits.dropWhile (· = '0')
  let leading : Int := digits.length + exponent
  if digits.isEmpty || leading < -400 then 0
  else if 400 < leading then 1.0 / 0.0
  else
    let kept := shorten digits
    let exponent := leading - kept.length
    if leading ≤ 20 then Float.ofScientific (Numeral.value kept) (exponent < 0) exponent.natAbs
    else nearestQuotient (Numeral.value kept * Nat.pow 10 exponent.toNat) (Nat.pow 10 (-exponent).toNat)

/-- The digits at the beginning of a text, and what follows. -/
def spanDigits (text : Text) : Text × Text := text.span Char.isDigit

/-- The exponent part: nothing, or a mark, an optional sign and digits. -/
def readExponent? : Text → Option Int
  | [] => some 0
  | mark :: text =>
    if mark = 'e' || mark = 'E' then
      let (negative, digits) :=
        match text with
        | '-' :: rest => (true, rest)
        | '+' :: rest => (false, rest)
        | rest => (false, rest)
      if digits.isEmpty || !digits.all Char.isDigit then none
      else some (if negative then -(Numeral.value digits) else Numeral.value digits)
    else none

/-- The magnitude a numeral denotes: digits with at most one point and at least
one digit, then an optional exponent. -/
def readMagnitude? (text : Text) : Option Float :=
  let (whole, rest) := spanDigits text
  let (fraction, rest) :=
    match rest with
    | '.' :: rest => spanDigits rest
    | rest => ([], rest)
  if whole.isEmpty && fraction.isEmpty then none
  else
    (readExponent? rest).map fun exponent =>
      nearestDouble (whole ++ fraction) (exponent - fraction.length)

/-- The double-precision number a numeral denotes, correctly rounded. Words are
no numerals. -/
def readNumeral? : Text → Option Float
  | '-' :: text => (readMagnitude? text).map (-·)
  | '+' :: text => readMagnitude? text
  | text => readMagnitude? text

end SqlWire.FloatText

namespace SqlWire

/-- The double nearest to a decimal, read from the text the decimal is displayed
as. -/
def Decimal.toFloat? (d : Decimal) : Option Float :=
  d.display?.map fun text => (FloatText.readNumeral? text).getD (0.0 / 0.0)

end SqlWire
