import Mathlib
import SqlWire.Number.FloatText

/-! Whole numbers as double-precision numbers. A whole number of more than fifty-three bits
lies between two doubles and becomes the nearer one, of two equally near ones that with an even
mantissa; what is too large for all of them becomes infinite. The bits that come out are read
as just that double. -/
namespace SqlWire.DoubleRounding
open Float.Model Float.Model.UnpackedFloat FloatText

/-! ## Doubles that are whole numbers -/

/-- A mantissa of fifty-three bits and a power of two, with the right distance below. -/
structure IsNormal (x : Binary) : Prop where
  least : 2 ^ 52 ≤ x.mantissa
  most : x.mantissa < 2 ^ 53
  narrow : x.narrowBelow = decide (x.mantissa = 2 ^ 52)

/-- A positive double from `2 ^ 54` on. -/
structure IsDouble (x : Binary) : Prop extends IsNormal x where
  low : 2 ≤ x.exponent
  high : x.exponent ≤ 971

/-- How far away the next double above is. -/
def unit (x : Binary) : Nat := 2 ^ x.exponent.toNat

/-- How far away the next double below is, which is half as far from a power of two. -/
def unitBelow (x : Binary) : Nat := if x.narrowBelow then unit x / 2 else unit x

theorem unit_positive (x : Binary) : 0 < unit x := Nat.two_pow_pos _

theorem below_le (x : Binary) : unitBelow x ≤ unit x := by
  unfold unitBelow
  split <;> omega

/-- The whole number that a double is. -/
def whole (x : Binary) : Nat := x.mantissa * unit x

/-- A whole number rounds to a double when it lies no farther from it than half way to the
next doubles on both sides. Half way it does so only to an even mantissa. -/
structure RoundsTo (n : Nat) (x : Binary) : Prop where
  below : 2 * whole x ≤ 2 * n + unitBelow x
  above : 2 * n ≤ 2 * whole x + unit x
  tie : 2 * whole x = 2 * n + unitBelow x ∨ 2 * n = 2 * whole x + unit x →
    x.mantissa % 2 = 0

/-! ## Mantissas that are shifted -/

/-- The quotient by a power of two, rounded to the nearest whole number and half way to the
even one. -/
def rounded (m k : Nat) : Nat :=
  Accuracy.roundToNearestEven (m / 2 ^ k) (accuracyOfFraction (m % 2 ^ k) (2 ^ k))

/-- What a shift by one place leaves of a mantissa and of the fraction behind it. -/
theorem shift_one {em : ExtendedMantissa} {rest unit : Nat} (below : rest < unit)
    (same : em.accuracy = accuracyOfFraction rest unit) :
    em.shiftRightOne.accuracy =
      accuracyOfFraction (rest + unit * (em.mantissa % 2)) (unit * 2) := by
  obtain ⟨mantissa, round, sticky⟩ := em
  have left : (round || sticky) = decide (rest ≠ 0) := by
    by_cases none : rest = 0
    · rw [none] at same ⊢
      cases round <;> cases sticky <;> simp_all [ExtendedMantissa.accuracy, accuracyOfFraction]
    · cases round <;> cases sticky <;> simp_all [ExtendedMantissa.accuracy, accuracyOfFraction]
  rw [ExtendedMantissa.shiftRightOne]
  dsimp only
  rw [left]
  rcases Nat.mod_two_eq_zero_or_one mantissa with even | odd
  · rw [even, Nat.mul_zero, Nat.add_zero]
    by_cases none : rest = 0
    · simp [none, ExtendedMantissa.accuracy, accuracyOfFraction]
    · have less : compare (2 * rest) (unit * 2) = .lt := Nat.compare_eq_lt.mpr (by omega)
      simp [none, ExtendedMantissa.accuracy, accuracyOfFraction, less]
  · rw [odd, Nat.mul_one]
    have some : rest + unit ≠ 0 := by omega
    by_cases none : rest = 0
    · have half : compare (2 * (rest + unit)) (unit * 2) = .eq :=
        Nat.compare_eq_eq.mpr (by omega)
      rw [accuracyOfFraction, if_neg some, half]
      simp [none, ExtendedMantissa.accuracy]
    · have more : compare (2 * (rest + unit)) (unit * 2) = .gt :=
        Nat.compare_eq_gt.mpr (by omega)
      rw [accuracyOfFraction, if_neg some, more]
      simp [none, ExtendedMantissa.accuracy]

/-- A shift by one place after the other keeps what it shifts out as a fraction of the last
place. -/
theorem shift_keeps (m k : Nat) :
    (Nat.repeat ExtendedMantissa.shiftRightOne k ⟨m, false, false⟩).mantissa = m / 2 ^ k ∧
      (Nat.repeat ExtendedMantissa.shiftRightOne k ⟨m, false, false⟩).accuracy =
        accuracyOfFraction (m % 2 ^ k) (2 ^ k) := by
  induction k with
  | zero => simp [Nat.repeat, ExtendedMantissa.accuracy, accuracyOfFraction, Nat.mod_one]
  | succ k ih =>
    obtain ⟨mantissa, accuracy⟩ := ih
    rw [Nat.repeat]
    constructor
    · rw [ExtendedMantissa.shiftRightOne, mantissa, Nat.div_div_eq_div_mul, Nat.pow_succ]
    · rw [shift_one (Nat.mod_lt m (Nat.two_pow_pos k)) accuracy, mantissa, Nat.pow_succ,
        Nat.mod_mul]

private theorem shift_rounds (m k : Nat) :
    ((⟨m, false, false⟩ : ExtendedMantissa) >>> k).roundedMantissa = rounded m k := by
  obtain ⟨mantissa, accuracy⟩ := shift_keeps m k
  change (Nat.repeat ExtendedMantissa.shiftRightOne k ⟨m, false, false⟩).roundedMantissa = _
  rw [ExtendedMantissa.roundedMantissa, mantissa, accuracy, rounded]

/-- Rounding goes down below half a unit, up above it, and half way to the even side. -/
theorem rounded_cases (m k : Nat) :
    2 * (m % 2 ^ k) < 2 ^ k ∧ rounded m k = m / 2 ^ k ∨
      2 * (m % 2 ^ k) = 2 ^ k ∧ rounded m k = m / 2 ^ k + m / 2 ^ k % 2 ∨
      2 ^ k < 2 * (m % 2 ^ k) ∧ rounded m k = m / 2 ^ k + 1 := by
  have unit := Nat.two_pow_pos k
  rw [rounded, accuracyOfFraction]
  split
  next none => exact .inl ⟨by omega, rfl⟩
  next some =>
    cases side : compare (2 * (m % 2 ^ k)) (2 ^ k) with
    | lt => exact .inl ⟨Nat.compare_eq_lt.mp side, rfl⟩
    | eq => exact .inr (.inl ⟨Nat.compare_eq_eq.mp side, rfl⟩)
    | gt => exact .inr (.inr ⟨Nat.compare_eq_gt.mp side, rfl⟩)

/-- The rounded quotient is at most half a unit away, and even when it is just that. -/
theorem rounded_near (m k : Nat) :
    2 * (rounded m k * 2 ^ k) ≤ 2 * m + 2 ^ k ∧ 2 * m ≤ 2 * (rounded m k * 2 ^ k) + 2 ^ k ∧
      (2 * (rounded m k * 2 ^ k) = 2 * m + 2 ^ k ∨ 2 * m = 2 * (rounded m k * 2 ^ k) + 2 ^ k →
        rounded m k % 2 = 0) := by
  have unit := Nat.two_pow_pos k
  have parts := Nat.div_add_mod' m (2 ^ k)
  have less := Nat.mod_lt m unit
  rcases rounded_cases m k with ⟨low, same⟩ | ⟨half, same⟩ | ⟨high, same⟩
  · rw [same]
    omega
  · rcases Nat.mod_two_eq_zero_or_one (m / 2 ^ k) with even | odd
    · rw [same, even, Nat.add_zero]
      omega
    · rw [same, odd, Nat.add_mul, Nat.one_mul]
      omega
  · rw [same, Nat.add_mul, Nat.one_mul]
    omega

private theorem rounded_between (m k : Nat) :
    m / 2 ^ k ≤ rounded m k ∧ rounded m k ≤ m / 2 ^ k + 1 := by
  rcases rounded_cases m k with ⟨-, same⟩ | ⟨-, same⟩ | ⟨-, same⟩ <;> omega

/-! ## Whole numbers that are rounded -/

private theorem shifted_exact (m : Nat) (e : Int) :
    shiftToTargetExponent .binary64 m e .exact =
      ((⟨m, false, false⟩ : ExtendedMantissa) >>> (max (m.log2 - 52 + e) (-1074) - e).toNat,
        e + (max (m.log2 - 52 + e) (-1074) - e).toNat) := by
  have target : Format.binary64.targetExponent (totalExponent m e) =
      max (m.log2 - 52 + e) (-1074) := by
    have bits : (Format.binary64.mantissaBits : Int) = 53 := rfl
    have least : Format.binary64.minExponent = -1074 := by decide
    rw [Format.targetExponent, totalExponent, bits, least]
    congr 1
    omega
  rw [shiftToTargetExponent, target]
  rfl

private theorem log_scaled (some : m ≠ 0) (places : Nat) :
    (m * 2 ^ places).log2 = m.log2 + places := by
  have unit := Nat.two_pow_pos places
  have below := Nat.mul_le_mul_right (2 ^ places) (Nat.log2_self_le some)
  have above := Nat.mul_lt_mul_of_pos_right (Nat.lt_log2_self (n := m)) unit
  rw [← Nat.pow_add] at below above
  rw [Nat.add_right_comm] at above
  exact (Nat.log2_eq_iff (Nat.mul_ne_zero some unit.ne')).mpr ⟨below, above⟩

private theorem wide_some {n : Nat} (wide : 53 ≤ n.log2) : n ≠ 0 := by
  rintro rfl
  simp at wide

section Scaled
variable {n : Nat} (wide : 53 ≤ n.log2)
include wide

/-- The number with fifty-three zeros behind it is shifted to fifty-three bits. -/
theorem scaled_shift :
    shiftToTargetExponent .binary64 (n * 2 ^ 53) (-53) .exact =
      ((⟨n * 2 ^ 53, false, false⟩ : ExtendedMantissa) >>> (n.log2 + 1), (n.log2 : Int) - 52) := by
  have some := wide_some wide
  have places : (max (((n.log2 + 53 : Nat) : Int) - 52 + -53) (-1074) - -53).toNat =
      n.log2 + 1 := by omega
  have exponent : (-53 : Int) + ((n.log2 + 1 : Nat) : Int) = (n.log2 : Int) - 52 := by omega
  rw [shifted_exact, log_scaled some, places, exponent]

/-- The quotient that is rounded is the number in units of its last bit. -/
theorem quotient_near :
    let mantissa := rounded (n * 2 ^ 53) (n.log2 + 1)
    let unit := 2 ^ (n.log2 - 52)
    2 * (mantissa * unit) ≤ 2 * n + unit ∧ 2 * n ≤ 2 * (mantissa * unit) + unit ∧
      (2 * (mantissa * unit) = 2 * n + unit ∨ 2 * n = 2 * (mantissa * unit) + unit →
        mantissa % 2 = 0) ∧
      2 ^ 52 ≤ mantissa ∧ mantissa ≤ 2 ^ 53 := by
  intro mantissa unit
  have some := wide_some wide
  have places : n.log2 - 52 + 53 = n.log2 + 1 := by omega
  have width : 2 ^ (n.log2 + 1) = unit * 2 ^ 53 := by rw [← Nat.pow_add, places]
  obtain ⟨below, above, tie⟩ := rounded_near (n * 2 ^ 53) (n.log2 + 1)
  have units : mantissa * (unit * 2 ^ 53) = mantissa * unit * 2 ^ 53 := (Nat.mul_assoc ..).symm
  rw [width, units] at below above tie
  have low : 2 ^ 52 ≤ n * 2 ^ 53 / 2 ^ (n.log2 + 1) := by
    have least := Nat.log2_self_le some
    rw [Nat.le_div_iff_mul_le (Nat.two_pow_pos _), Nat.pow_succ]
    omega
  have high : n * 2 ^ 53 / 2 ^ (n.log2 + 1) < 2 ^ 53 := by
    have most := Nat.lt_log2_self (n := n)
    rw [Nat.div_lt_iff_lt_mul (Nat.two_pow_pos _)]
    omega
  obtain ⟨floor, ceiling⟩ := rounded_between (n * 2 ^ 53) (n.log2 + 1)
  refine ⟨by omega, by omega, fun half => tie ?_, low.trans floor, ceiling.trans high⟩
  omega

end Scaled

/-- The double a whole number is rounded to, were there none too large. A mantissa that is
rounded up to fifty-four bits loses its last one, which is zero. -/
def nearest (n : Nat) : Binary :=
  let mantissa := rounded (n * 2 ^ 53) (n.log2 + 1)
  if mantissa < 2 ^ 53 then ⟨mantissa, n.log2 - 52, mantissa = 2 ^ 52⟩
  else ⟨2 ^ 52, n.log2 - 51, true⟩

private theorem nearest_kept (fits : rounded (n * 2 ^ 53) (n.log2 + 1) < 2 ^ 53) :
    nearest n = ⟨rounded (n * 2 ^ 53) (n.log2 + 1), n.log2 - 52,
      rounded (n * 2 ^ 53) (n.log2 + 1) = 2 ^ 52⟩ := if_pos fits

private theorem nearest_carried (full : ¬ rounded (n * 2 ^ 53) (n.log2 + 1) < 2 ^ 53) :
    nearest n = ⟨2 ^ 52, n.log2 - 51, true⟩ := if_neg full

private theorem nearest_normal (wide : 53 ≤ n.log2) : IsNormal (nearest n) := by
  obtain ⟨-, -, -, least, -⟩ := quotient_near wide
  by_cases fits : rounded (n * 2 ^ 53) (n.log2 + 1) < 2 ^ 53
  · rw [nearest_kept fits]
    exact ⟨least, fits, rfl⟩
  · rw [nearest_carried fits]
    exact ⟨Nat.le_refl _, Nat.pow_lt_pow_right (by decide) (by decide), rfl⟩

private theorem nearest_exponent (n : Nat) : (n.log2 : Int) - 52 ≤ (nearest n).exponent := by
  by_cases fits : rounded (n * 2 ^ 53) (n.log2 + 1) < 2 ^ 53
  · rw [nearest_kept fits]
  · rw [nearest_carried fits]
    dsimp only
    omega

private theorem kept_shift {mantissa : Nat} {exponent : Int} (least : 2 ^ 52 ≤ mantissa)
    (most : mantissa < 2 ^ 53) (low : -1074 ≤ exponent) :
    shiftToTargetExponent .binary64 mantissa exponent .exact =
      (⟨mantissa, false, false⟩, exponent) := by
  have log : mantissa.log2 = 52 := (Nat.log2_eq_iff (by omega)).mpr ⟨least, most⟩
  have places : (max (((52 : Nat) : Int) - 52 + exponent) (-1074) - exponent).toNat = 0 := by
    omega
  rw [shifted_exact, log, places, Int.natCast_zero, Int.add_zero]
  rfl

private theorem carried_shift {exponent : Int} (low : -1074 ≤ exponent) :
    shiftToTargetExponent .binary64 (2 ^ 53) exponent .exact =
      (⟨2 ^ 52, false, false⟩, exponent + 1) := by
  have places : (max (((53 : Nat) : Int) - 52 + exponent) (-1074) - exponent).toNat = 1 := by
    omega
  rw [shifted_exact, Nat.log2_two_pow, places]
  rfl

/-- A whole number is made of its nearest double. -/
theorem nearest_made (wide : 53 ≤ n.log2) :
    ∃ some : 0 < (nearest n).mantissa, UnpackedFloat.ofScientific .binary64 n 0 =
      .finite .positive (nearest n).mantissa (nearest n).exponent some := by
  obtain ⟨-, -, -, least, most⟩ := quotient_near wide
  have some := wide_some wide
  have low : ¬ (0 : Int) < -(2 ^ Format.binary64.exponentBits + n.log2) := by
    have bits : Format.binary64.exponentBits = 11 := rfl
    rw [bits]
    omega
  have scaled : UnpackedFloat.ofScientific .binary64 n 0 =
      roundWithAccuracy .binary64 .positive (n <<< 53 * 1) (-53) .exact := by
    rw [UnpackedFloat.ofScientific, dif_neg some, if_neg (by decide), if_neg low,
      if_pos (by decide)]
    rfl
  rw [scaled, Nat.mul_one, Nat.shiftLeft_eq, roundWithAccuracy, scaled_shift wide]
  dsimp only
  rw [shift_rounds]
  by_cases fits : rounded (n * 2 ^ 53) (n.log2 + 1) < 2 ^ 53
  · have solid : 0 < rounded (n * 2 ^ 53) (n.log2 + 1) := by omega
    rw [kept_shift least fits (by omega), nearest_kept fits]
    exact ⟨solid, dif_neg solid.ne'⟩
  · have full : rounded (n * 2 ^ 53) (n.log2 + 1) = 2 ^ 53 := by omega
    have exponent : (n.log2 : Int) - 52 + 1 = n.log2 - 51 := by omega
    rw [full, carried_shift (by omega), nearest_carried fits, exponent]
    exact ⟨Nat.two_pow_pos 52, dif_neg (Nat.two_pow_pos 52).ne'⟩

private theorem unit_of (mantissa : Nat) (exponent : Int) (narrowBelow : Bool) :
    unit ⟨mantissa, exponent, narrowBelow⟩ = 2 ^ exponent.toNat := rfl

/-- A whole number rounds to its nearest double. -/
theorem nearest_rounds (wide : 53 ≤ n.log2) : RoundsTo n (nearest n) := by
  obtain ⟨below, above, tie, least, most⟩ := quotient_near wide
  have some := wide_some wide
  have floor := Nat.log2_self_le some
  have ceiling := Nat.lt_log2_self (n := n)
  have full : 2 ^ 52 * 2 ^ (n.log2 - 52) = 2 ^ n.log2 := by
    rw [← Nat.pow_add, Nat.add_sub_cancel' (by omega)]
  by_cases fits : rounded (n * 2 ^ 53) (n.log2 + 1) < 2 ^ 53
  · have same := nearest_kept fits
    have places : ((n.log2 : Int) - 52).toNat = n.log2 - 52 := by omega
    have scale : unit (nearest n) = 2 ^ (n.log2 - 52) := by rw [same, unit_of, places]
    have number : whole (nearest n) =
        rounded (n * 2 ^ 53) (n.log2 + 1) * 2 ^ (n.log2 - 52) := by
      rw [whole, scale, same]
    by_cases power : rounded (n * 2 ^ 53) (n.log2 + 1) = 2 ^ 52
    · -- the least number with its leading bit is not below the least double with it
      have even : (nearest n).mantissa % 2 = 0 := by
        rw [same]
        exact congrArg (· % 2) power
      rw [← number] at above
      rw [power, full] at number
      exact ⟨by omega, by rw [scale]; exact above, fun _ => even⟩
    · have side : unitBelow (nearest n) = 2 ^ (n.log2 - 52) := by
        rw [unitBelow, scale, same, if_neg (by simpa using power)]
      have mantissa : (nearest n).mantissa = rounded (n * 2 ^ 53) (n.log2 + 1) := by rw [same]
      rw [← number] at below above tie
      exact ⟨by rw [side]; exact below, by rw [scale]; exact above,
        by rw [side, scale, mantissa]; exact tie⟩
  · have same := nearest_carried fits
    have carried : rounded (n * 2 ^ 53) (n.log2 + 1) = 2 ^ 53 := by omega
    have places : ((n.log2 : Int) - 51).toNat = n.log2 - 52 + 1 := by omega
    have scale : unit (nearest n) = 2 ^ (n.log2 - 52) * 2 := by
      rw [same, unit_of, places, Nat.pow_succ]
    have mantissa : (nearest n).mantissa = 2 ^ 52 := by rw [same]
    have number : whole (nearest n) = 2 ^ 53 * 2 ^ (n.log2 - 52) := by
      rw [whole, scale, mantissa]
      omega
    have side : unitBelow (nearest n) = 2 ^ (n.log2 - 52) := by
      rw [unitBelow, scale, same, if_pos rfl, Nat.mul_div_cancel _ (by decide)]
    rw [carried, ← number] at below
    rw [Nat.pow_succ] at ceiling
    exact ⟨by rw [side]; exact below, by rw [scale]; omega, fun _ => by rw [mantissa]; rfl⟩

/-! ## One nearest double -/

/-- What rounds to a double lies below the middle between it and the next, also when the
mantissa is the largest one, which is odd. -/
theorem rounds_less (normal : IsNormal x) (rounds : RoundsTo n x) :
    2 * n < (2 ^ 54 - 1) * unit x := by
  have solid := unit_positive x
  have above := rounds.above
  have most := normal.most
  by_cases last : x.mantissa = 2 ^ 53 - 1
  · have number : whole x = (2 ^ 53 - 1) * unit x := by rw [whole, last]
    have below : 2 * n < 2 * whole x + unit x := Nat.lt_of_le_of_ne above fun middle => by
      have even := rounds.tie (.inr middle)
      rw [last] at even
      norm_num at even
    omega
  · have less : whole x ≤ (2 ^ 53 - 2) * unit x := Nat.mul_le_mul_right _ (by omega)
    omega

/-- What rounds to a double lies above the middle between the least double with its exponent and
the next below. -/
theorem rounds_more (normal : IsNormal x) (rounds : RoundsTo n x) :
    (2 ^ 54 - 1) * unit x ≤ 4 * n := by
  have below := rounds.below
  have solid := unit_positive x
  cases narrow : x.narrowBelow with
  | true =>
    have power : x.mantissa = 2 ^ 52 := by simpa [narrow] using normal.narrow
    have number : whole x = 2 ^ 52 * unit x := by rw [whole, power]
    have side : unitBelow x = unit x / 2 := by rw [unitBelow, narrow, if_pos rfl]
    omega
  | false =>
    have power : x.mantissa ≠ 2 ^ 52 := by simpa [narrow] using normal.narrow
    have least := normal.least
    have more : (2 ^ 52 + 1) * unit x ≤ whole x := Nat.mul_le_mul_right _ (by omega)
    have side : unitBelow x = unit x := by rw [unitBelow, narrow, if_neg Bool.false_ne_true]
    omega

private theorem unit_grows (less : x.exponent < y.exponent) (low : 0 ≤ x.exponent) :
    2 * unit x ≤ unit y := by
  rw [unit, unit, ← Nat.pow_succ']
  exact Nat.pow_le_pow_right Nat.two_pos (by omega)

/-- Nor do both of two neighbours take the number in the middle. -/
theorem mantissas_apart (same : unit x = unit y) (first : RoundsTo n x) (second : RoundsTo n y)
    (half : unitBelow y ≤ unit y) : ¬ x.mantissa < y.mantissa := by
  intro less
  have solid := unit_positive x
  have next : (x.mantissa + 1) * unit x ≤ whole y := by
    rw [whole, ← same]
    exact Nat.mul_le_mul_right _ less
  have grown : (x.mantissa + 1) * unit x = whole x + unit x := Nat.succ_mul ..
  have above := first.above
  have below := second.below
  have middle : 2 * n = 2 * whole x + unit x := by omega
  have even := first.tie (.inr middle)
  have even' := second.tie (.inl (by omega))
  have behind : (x.mantissa + 1) * unit x = y.mantissa * unit x := by
    have number : whole y = y.mantissa * unit x := by rw [whole, same]
    omega
  have successor := Nat.eq_of_mul_eq_mul_right solid behind
  omega

/-- A number rounds to one double only. -/
theorem rounds_unique (one : IsDouble x) (two : IsDouble y) (first : RoundsTo n x)
    (second : RoundsTo n y) : x = y := by
  have less := rounds_less one.toIsNormal first
  have less' := rounds_less two.toIsNormal second
  have more := rounds_more one.toIsNormal first
  have more' := rounds_more two.toIsNormal second
  have low := one.low
  have low' := two.low
  rcases Int.lt_trichotomy x.exponent y.exponent with smaller | same | larger
  · have grows := unit_grows smaller (by omega)
    omega
  · have units : unit x = unit y := by rw [unit, same, unit]
    have mantissas : x.mantissa = y.mantissa := Nat.le_antisymm
      (Nat.not_lt.mp (mantissas_apart units.symm second first (below_le x)))
      (Nat.not_lt.mp (mantissas_apart units first second (below_le y)))
    have sides : x.narrowBelow = y.narrowBelow := by
      rw [one.narrow, two.narrow, mantissas]
    obtain ⟨mantissa, exponent, narrowBelow⟩ := x
    obtain ⟨mantissa', exponent', narrowBelow'⟩ := y
    dsimp only at same mantissas sides
    rw [same, mantissas, sides]
  · have grows := unit_grows larger (by omega)
    omega

/-! ## The bits of doubles -/

/-- The bits of a number, read as a natural number. -/
theorem packed_number (sign : Sign) (biased fraction : Nat) (small : biased < 2 ^ 11)
    (less : fraction < 2 ^ 52) :
    (packComponents .binary64 sign (.ofNat _ biased) (.ofNat _ fraction)).toNat =
      sign.toBitVec.toNat * 2 ^ 63 + biased * 2 ^ 52 + fraction := by
  rw [packComponents, BitVec.toNat_append, BitVec.toNat_append, BitVec.toNat_ofNat,
    BitVec.toNat_ofNat, Nat.mod_eq_of_lt small, Nat.mod_eq_of_lt less,
    ← Nat.shiftLeft_add_eq_or_of_lt small, ← Nat.shiftLeft_add_eq_or_of_lt less,
    Nat.shiftLeft_eq, Nat.shiftLeft_eq]
  omega

private theorem bias_bits : ((Format.exponentBias .binary64 : Nat) : Int) + (52 : Nat) = 1075 := rfl

/-- A double with a mantissa of fifty-three bits is packed without the leading one. -/
theorem packed_normal (sign : Sign) {mantissa : Nat} {exponent : Int} (some : 0 < mantissa)
    (least : 2 ^ 52 ≤ mantissa) (most : mantissa < 2 ^ 53) (high : exponent ≤ 971) :
    UnpackedFloat.pack .binary64 (.finite sign mantissa exponent some) =
      packComponents .binary64 sign (.ofNat _ (exponent + 1075).toNat)
        (.ofNat _ (mantissa - 2 ^ 52)) := by
  have log : mantissa.log2 = 52 := (Nat.log2_eq_iff (by omega)).mpr ⟨least, most⟩
  have biased : (exponent + (Format.exponentBias .binary64 : Nat) + (52 : Nat)).toNat =
      (exponent + 1075).toNat := by rw [Int.add_assoc, bias_bits]
  have fits : ¬ 2 ^ 11 ≤ (exponent + 1075).toNat + 1 := by omega
  have fraction : BitVec.ofNat 52 mantissa = .ofNat 52 (mantissa - 2 ^ 52) := by
    apply BitVec.eq_of_toNat_eq
    rw [BitVec.toNat_ofNat, BitVec.toNat_ofNat]
    omega
  rw [UnpackedFloat.pack]
  dsimp only
  rw [biased, if_neg fits, log, if_pos (by decide : 52 + 1 = Format.binary64.mantissaBits),
    fraction]

/-- A double beyond the largest exponent is infinite. -/
theorem packed_huge (sign : Sign) {mantissa : Nat} {exponent : Int} (some : 0 < mantissa)
    (huge : 972 ≤ exponent) :
    Float.Model.pack (.finite sign mantissa exponent some) = Float.Model.pack (.infinity sign) := by
  have biased : 2 ^ 11 ≤
      (exponent + (Format.exponentBias .binary64 : Nat) + (52 : Nat)).toNat + 1 := by
    rw [Int.add_assoc, bias_bits]
    omega
  have same : UnpackedFloat.pack .binary64 (.finite sign mantissa exponent some) =
      UnpackedFloat.pack .binary64 (.infinity sign) := by
    rw [UnpackedFloat.pack]
    exact if_pos biased
  rw [Float.Model.pack, Float.Model.pack]
  congr 2

/-- The bits of a double are read as that double. -/
theorem double_read (double : IsDouble x) (some : 0 < x.mantissa) (sign : Sign) :
    ofDouble ⟨Float.Model.pack (.finite sign x.mantissa x.exponent some)⟩ =
      ⟨sign == .negative, .finite x⟩ := by
  obtain ⟨⟨least, most, narrow⟩, low, high⟩ := double
  have bits : (Float.Model.pack (.finite sign x.mantissa x.exponent some)).toBits.toNat =
      sign.toBitVec.toNat * 2 ^ 63 + (x.exponent + 1075).toNat * 2 ^ 52 +
        (x.mantissa - 2 ^ 52) := by
    rw [← packed_number sign _ _ (by omega) (by omega), ← packed_normal sign some least most high]
    rfl
  have minus : sign.toBitVec.toNat = if sign == .negative then 1 else 0 := by
    cases sign <;> rfl
  obtain ⟨mantissa, exponent, narrowBelow⟩ := x
  dsimp only at *
  unfold ofDouble
  dsimp only [Float.toBits]
  rw [Binary.ofDoubleBits, bits]
  have rest : (sign.toBitVec.toNat * 2 ^ 63 + (exponent + 1075).toNat * 2 ^ 52 +
        (mantissa - 2 ^ 52)) % 9223372036854775808 =
      (exponent + 1075).toNat * 2 ^ 52 + (mantissa - 2 ^ 52) := by omega
  have biased : (sign.toBitVec.toNat * 2 ^ 63 + (exponent + 1075).toNat * 2 ^ 52 +
      (mantissa - 2 ^ 52)) / 4503599627370496 % 2048 = (exponent + 1075).toNat := by omega
  have fraction : (sign.toBitVec.toNat * 2 ^ 63 + (exponent + 1075).toNat * 2 ^ 52 +
      (mantissa - 2 ^ 52)) % 4503599627370496 = mantissa - 2 ^ 52 := by omega
  rw [rest, biased, fraction, if_neg (by omega), if_pos (by omega), Binary.ofFields,
    if_neg (by omega)]
  have side : decide (9223372036854775808 ≤ sign.toBitVec.toNat * 2 ^ 63 +
      (exponent + 1075).toNat * 2 ^ 52 + (mantissa - 2 ^ 52)) = (sign == .negative) := by
    rw [minus]
    cases sign == .negative <;> simp <;> omega
  have whole : Nat.pow 2 52 + (mantissa - 2 ^ 52) = mantissa := by
    rw [Nat.pow_eq]
    omega
  have power : -1074 + (((exponent + 1075).toNat : Int) - 1) = exponent := by omega
  have tight : (decide (mantissa - 2 ^ 52 = 0) && decide (1 < (exponent + 1075).toNat)) =
      narrowBelow := by
    rw [narrow, ← Bool.decide_and]
    exact decide_eq_decide.mpr (by omega)
  rw [side, whole, power, tight]

private theorem sign_unpacked (sign : Sign) (exponent : BitVec 11) (mantissa : BitVec 52) :
    Sign.ofBitVec (unpackSign (packComponents .binary64 sign exponent mantissa)) = sign := by
  have bit : unpackSign (packComponents .binary64 sign exponent mantissa) = sign.toBitVec := by
    change (sign.toBitVec ++ exponent ++ mantissa).extractLsb' 63 1 = _
    rw [BitVec.extractLsb'_append_eq_of_le (by decide),
      BitVec.extractLsb'_append_eq_of_le (by decide)]
    exact BitVec.extractLsb'_eq_self
  rw [bit]
  cases sign <;> rfl

private theorem components_unpacked (sign : Sign) {exponent : BitVec 11} (mantissa : BitVec 52)
    (some : exponent ≠ 0#11) (fits : exponent ≠ -1#11)
    (solid : 0 < (1#1 ++ mantissa).toNat) :
    UnpackedFloat.unpack .binary64 (packComponents .binary64 sign exponent mantissa) =
      .finite sign (1#1 ++ mantissa).toNat (exponent.toNat - 1075) solid := by
  unfold UnpackedFloat.unpack
  simp only [unpackMantissa_packComponents, unpackExponent_packComponents, sign_unpacked]
  rw [if_neg fits, if_neg some, bias_bits]

/-- A minus sign before a double is put into its bits. -/
theorem double_negated {mantissa : Nat} {exponent : Int} (some : 0 < mantissa)
    (least : 2 ^ 52 ≤ mantissa) (most : mantissa < 2 ^ 53) (low : -1074 ≤ exponent)
    (high : exponent ≤ 971) :
    -Float.Model.pack (.finite .positive mantissa exponent some) =
      Float.Model.pack (.finite .negative mantissa exponent some) := by
  have biased : (BitVec.ofNat 11 (exponent + 1075).toNat).toNat = (exponent + 1075).toNat := by
    rw [BitVec.toNat_ofNat]
    omega
  have positive : BitVec.ofNat 11 (exponent + 1075).toNat ≠ 0#11 := fun same => by
    have none := congrArg BitVec.toNat same
    rw [biased, BitVec.toNat_ofNat] at none
    omega
  have finite : BitVec.ofNat 11 (exponent + 1075).toNat ≠ -1#11 := fun same => by
    have all := congrArg BitVec.toNat same
    rw [biased, (by rfl : (-1#11 : BitVec 11).toNat = 2047)] at all
    omega
  have full : (1#1 ++ BitVec.ofNat 52 (mantissa - 2 ^ 52)).toNat = mantissa := by
    have less : mantissa - 2 ^ 52 < 2 ^ 52 := by omega
    rw [BitVec.toNat_append, BitVec.toNat_ofNat, BitVec.toNat_ofNat, Nat.mod_eq_of_lt less,
      ← Nat.shiftLeft_add_eq_or_of_lt less, Nat.shiftLeft_eq]
    omega
  have power : ((exponent + 1075).toNat : Int) - 1075 = exponent := by omega
  have solid : 0 < (1#1 ++ BitVec.ofNat 52 (mantissa - 2 ^ 52)).toNat := by rwa [full]
  have unpacked : (Float.Model.pack (.finite .positive mantissa exponent some)).unpack =
      .finite .positive mantissa exponent some := by
    change UnpackedFloat.unpack .binary64
      (UnpackedFloat.pack .binary64 (.finite .positive mantissa exponent some)) = _
    rw [packed_normal _ some least most high, components_unpacked _ _ positive finite solid]
    congr 1
    rw [biased, power]
  change Float.Model.pack (Float.Model.pack _).unpack.neg = _
  rw [unpacked]
  rfl

/-! ## Whole numbers as doubles -/

/-- Half the unit of the largest doubles. -/
def halfUnit : Nat := 2 ^ 970

/-- The number half a unit above the largest double. From here on the nearest is infinite. -/
def overflow : Nat := (2 ^ 54 - 1) * halfUnit

private theorem power_scaled (a k : Nat) : 2 ^ (a + k) = 2 ^ k * 2 ^ a := by
  rw [Nat.pow_add, Nat.mul_comm]

private theorem half_scaled (k : Nat) : 2 ^ (970 + k) = 2 ^ k * halfUnit := by
  unfold halfUnit
  rw [power_scaled]

theorem half_above (most : m ≤ 970 + k) : 2 ^ m ≤ 2 ^ k * halfUnit :=
  (Nat.pow_le_pow_right Nat.two_pos most).trans_eq (half_scaled k)

theorem half_below (least : 970 + k ≤ m) : 2 ^ k * halfUnit ≤ 2 ^ m :=
  (half_scaled k).symm.trans_le (Nat.pow_le_pow_right Nat.two_pos least)

/-- What rounds to a double is not too large for all of them. -/
theorem rounds_below (double : IsDouble x) (rounds : RoundsTo n x) : n < overflow := by
  have high := double.high
  have less := rounds_less double.toIsNormal rounds
  have most : unit x ≤ 2 ^ 1 * halfUnit := by
    unfold unit
    exact half_above (by omega)
  rw [overflow]
  omega

theorem nearest_double (wide : 54 ≤ n.log2) (less : n < overflow) : IsDouble (nearest n) := by
  have normal := nearest_normal (by omega : 53 ≤ n.log2)
  have low := nearest_exponent n
  refine ⟨normal, by omega, Int.not_lt.mp fun high => ?_⟩
  have more := rounds_more normal (nearest_rounds (by omega))
  have least : 2 ^ 2 * halfUnit ≤ unit (nearest n) := by
    unfold unit
    exact half_below (by omega)
  rw [overflow] at less
  omega

private theorem nearest_huge (wide : 54 ≤ n.log2) (much : overflow ≤ n) :
    972 ≤ (nearest n).exponent := by
  have normal := nearest_normal (by omega : 53 ≤ n.log2)
  have low := nearest_exponent n
  by_contra small
  have less := rounds_below ⟨normal, by omega, by omega⟩ (nearest_rounds (by omega))
  omega

/-- A double, with or without a minus sign before it. -/
def withSign (negative : Bool) (x : Float) : Float := if negative then -x else x

/-- The infinite doubles are what their names say. -/
theorem infinite_read (sign : Sign) :
    ofDouble ⟨Float.Model.pack (.infinity sign)⟩ = ⟨sign == .negative, .infinite⟩ := by
  cases sign <;> decide +kernel

private theorem infinite_negated :
    -Float.Model.pack (.infinity .positive) = Float.Model.pack (.infinity .negative) := by
  decide +kernel

private theorem infinite_made : (1.0 / 0.0 : Float) = ⟨Float.Model.pack (.infinity .positive)⟩ := by
  decide +kernel

theorem infinite_signed (negative : Bool) :
    ofDouble (withSign negative (1.0 / 0.0)) = ⟨negative, .infinite⟩ := by
  rw [infinite_made]
  cases negative with
  | false => exact infinite_read .positive
  | true =>
    rw [withSign, if_pos rfl]
    exact (congrArg (ofDouble ⟨·⟩) infinite_negated).trans (infinite_read .negative)

/-- What a whole number of more than fifty-four bits is as a double, its sign apart. -/
def magnitude (n : Nat) : Magnitude := if n < overflow then .finite (nearest n) else .infinite

/-- A whole number, with a sign or without, is read back as the nearest double. -/
theorem natural_read (wide : 54 ≤ n.log2) (negative : Bool) :
    ofDouble (withSign negative (Float.ofNat n)) = ⟨negative, magnitude n⟩ := by
  obtain ⟨some, made⟩ := nearest_made (by omega : 53 ≤ n.log2)
  obtain ⟨-, -, -, least, -⟩ := quotient_near (by omega : 53 ≤ n.log2)
  have large : ¬ (n < 2 ^ 53 ∧ 0 ≤ 22) := fun ⟨less, _⟩ => by
    have bits := (Nat.log2_lt (wide_some (by omega))).mpr less
    omega
  have natural : Float.ofNat n =
      ⟨Float.Model.pack (.finite .positive (nearest n).mantissa (nearest n).exponent some)⟩ := by
    rw [← made]
    exact dif_neg large
  rw [natural, magnitude]
  by_cases less : n < overflow
  · have double := nearest_double wide less
    rw [if_pos less]
    cases negative with
    | false => exact double_read double some .positive
    | true =>
      have low := double.low
      have negated := double_negated some double.least double.most (by omega) double.high
      rw [withSign, if_pos rfl]
      exact (congrArg (ofDouble ⟨·⟩) negated).trans (double_read double some .negative)
  · have huge := nearest_huge wide (Nat.not_lt.mp less)
    rw [if_neg less, packed_huge .positive some huge, ← infinite_made]
    exact infinite_signed negative

end SqlWire.DoubleRounding
