import SqlWire.Text.Basic

/-! The fewest decimal digits that identify a binary floating-point number. A
decimal identifies the number when it lies among the reals that round to it;
of the decimals with the fewest digits the one closest to the number is taken.
All comparisons are exact, on natural numbers. -/
namespace SqlWire

/-- The positive number `mantissa * 2 ^ exponent` of a binary format. -/
structure Binary where
  mantissa : Nat
  exponent : Int
  /-- The neighbour below is half as far away as the neighbour above. -/
  narrowBelow : Bool
deriving DecidableEq, Repr

namespace Binary

/-- The magnitude held in a format with `fractionBits` bits of fraction, given
its biased exponent and fraction. `least` is the binary exponent of the least
positive number. -/
def ofFields (fractionBits : Nat) (least : Int) (biased fraction : Nat) : Binary :=
  if biased = 0 then ⟨fraction, least, false⟩
  else ⟨Nat.pow 2 fractionBits + fraction, least + (biased - 1), fraction = 0 && 1 < biased⟩

/-- The magnitude of a finite double-precision number. -/
def ofDoubleBits (bits : UInt64) : Binary :=
  ofFields 52 (-1074) (bits.toNat / 0x10000000000000 % 0x800) (bits.toNat % 0x10000000000000)

/-- The magnitude of a finite single-precision number. -/
def ofSingleBits (bits : UInt32) : Binary :=
  ofFields 23 (-149) (bits.toNat / 0x800000 % 0x100) (bits.toNat % 0x800000)

end Binary

/-- The number `digits * 10 ^ exponent`. -/
structure Scientific where
  digits : Nat
  exponent : Int
deriving DecidableEq, Repr

/-- Which of two equally close candidates is taken. -/
inductive TieRule where
  | toEven
  | up
deriving DecidableEq, Repr

namespace Binary

/-- Quarters of the mantissa's unit, counted on a common scale with the points
of the grid `10 ^ e`: the number is `4 * mantissa * quarter` and the point `c`
of the grid is `c * point`. -/
structure CommonScale where
  quarter : Nat
  point : Nat

def commonScale (x : Binary) (e : Int) : CommonScale :=
  let p := x.exponent - 2
  ⟨Nat.pow 2 p.toNat * Nat.pow 10 (-e).toNat, Nat.pow 10 e.toNat * Nat.pow 2 (-p).toNat⟩

/-- Whether the point `c` of the grid `10 ^ e` is among the reals that round to
the number. Half-way points belong to it when the mantissa is even. -/
def identifiedBy (x : Binary) (e : Int) (c : Nat) : Bool :=
  let s := x.commonScale e
  let low := (4 * x.mantissa - if x.narrowBelow then 1 else 2) * s.quarter
  let high := (4 * x.mantissa + 2) * s.quarter
  let here := c * s.point
  if x.mantissa % 2 = 0 then low ≤ here && here ≤ high else low < here && here < high

/-- The point of the grid `10 ^ e` that identifies the number best, if one
does. Only the two neighbours of the number can. -/
def onGrid (tie : TieRule) (x : Binary) (e : Int) : Option Scientific :=
  let s := x.commonScale e
  let below := 4 * x.mantissa * s.quarter / s.point
  match x.identifiedBy e below, x.identifiedBy e (below + 1) with
  | false, false => none
  | true, false => some ⟨below, e⟩
  | false, true => some ⟨below + 1, e⟩
  | true, true =>
    match compare (8 * x.mantissa * s.quarter) ((2 * below + 1) * s.point) with
    | .lt => some ⟨below, e⟩
    | .gt => some ⟨below + 1, e⟩
    | .eq =>
      match tie with
      | .up => some ⟨below + 1, e⟩
      | .toEven => some ⟨if below % 2 = 0 then below else below + 1, e⟩

/-- How many digits a natural number has; zero has none. -/
def digitCount (n : Nat) : Nat := if n = 0 then 0 else (Nat.toDigits 10 n).length

/-- The least `k` with the number below `10 ^ k`. -/
def decimalScale (x : Binary) : Int :=
  let num := x.mantissa * Nat.pow 2 x.exponent.toNat
  let den := Nat.pow 2 (-x.exponent).toNat
  if den ≤ num then digitCount (num / den)
  else 1 - (digitCount ((den + num - 1) / num - 1) : Int)

/-- The number written out exactly. -/
def exactly (x : Binary) : Scientific :=
  if 0 ≤ x.exponent then ⟨x.mantissa * Nat.pow 2 x.exponent.toNat, 0⟩
  else ⟨x.mantissa * Nat.pow 5 (-x.exponent).toNat, x.exponent⟩

end Binary

/-- Zeros at the end of the digits move into the exponent. -/
def Scientific.stripZeros (digits : Nat) (exponent : Int) : Scientific :=
  if 0 < digits ∧ digits % 10 = 0 then stripZeros (digits / 10) (exponent + 1)
  else ⟨digits, exponent⟩
termination_by digits
decreasing_by omega

/-- The fewest digits that identify a positive number: grids are tried from
coarse to fine, and seventeen digits are enough for double precision. -/
def Binary.shortest (tie : TieRule) (x : Binary) : Scientific :=
  let k := x.decimalScale
  let found := ((List.range 17).findSome? fun (n : Nat) => x.onGrid tie (k - (n + 1))).getD x.exactly
  Scientific.stripZeros found.digits found.exponent

end SqlWire
