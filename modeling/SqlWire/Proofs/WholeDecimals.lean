import Mathlib.Data.List.TakeWhile
import Mathlib.Data.Rat.Floor
import SqlWire.Param.Coerce
import SqlWire.Proofs.DecimalText

/-! A decimal becomes an integer just where it is one. Truncation and the test for a fraction
are measured against the rational number that a decimal stands for; that they also are what
the digits before and behind the point say shows that no width on the way matters. A decimal
bound to an integer column is then its own number or refused. -/
namespace SqlWire.WholeDecimals
open NumeralText DecimalGrammar DecimalText

/-! ## Truncation -/

/-- The integer next to a number on the side of zero. -/
def towardsZero (q : ℚ) : Int := if 0 ≤ q then ⌊q⌋ else ⌈q⌉

/-- Truncation is a quotient also where no digit stands before the point. -/
theorem trunc_quotient (d : Decimal) : d.trunc = d.unscaled.tdiv (10 ^ d.scale.toNat) := by
  have digits := outnumbered_iff d
  rw [Decimal.trunc]
  split
  · rfl
  next few =>
    have small : d.unscaled.natAbs < 10 ^ d.scale.toNat := by
      rw [digits, not_or, not_le] at few
      exact few.2
    have quotient : (d.unscaled.tdiv (10 ^ d.scale.toNat)).natAbs = 0 := by
      rw [Int.natAbs_tdiv, Int.natAbs_pow]
      exact Nat.div_eq_of_lt small
    exact (Int.natAbs_eq_zero.mp quotient).symm

private theorem trunc_towards_zero (d : Decimal) : d.trunc = towardsZero (rational d) := by
  have scale : (0 : ℚ) < 10 ^ d.scale.toNat := by positivity
  have floor := Rat.floor_intCast_div_natCast d.unscaled (10 ^ d.scale.toNat)
  have ceil := Rat.ceil_intCast_div_natCast d.unscaled (10 ^ d.scale.toNat)
  push_cast at floor ceil
  have sign : 0 ≤ rational d ↔ 0 ≤ d.unscaled := by
    rw [rational, le_div_iff₀ scale, zero_mul, Int.cast_nonneg_iff]
  rw [trunc_quotient, towardsZero]
  split
  next nonneg => rw [rational, floor, Int.tdiv_eq_ediv_of_nonneg (sign.mp nonneg)]
  next below =>
    rw [sign] at below
    rw [rational, ceil, ← Int.tdiv_eq_ediv_of_nonneg (by omega), Int.neg_tdiv, neg_neg]

theorem trunc_int64_iff (d : Decimal) (n : Int64) :
    d.truncInt64? = some n ↔ towardsZero (rational d) = n.toInt := by
  have low := n.le_toInt
  have high := n.toInt_lt
  rw [Decimal.truncInt64?, ← trunc_towards_zero]
  constructor
  · intro found
    split at found
    next fits =>
      cases found
      exact (Int64.toInt_ofInt_of_le fits.1 fits.2).symm
    · cases found
  · intro same
    rw [same, if_pos (by omega), Int64.ofInt_toInt]

theorem trunc_int64_none_iff (d : Decimal) : d.truncInt64? = none ↔
    ¬ (-2 ^ 63 ≤ towardsZero (rational d) ∧ towardsZero (rational d) < 2 ^ 63) := by
  rw [Decimal.truncInt64?, ← trunc_towards_zero]
  split
  next fits => exact iff_of_false (by simp) (not_not_intro fits)
  next beyond => exact iff_of_true rfl beyond

/-! ## Fractions -/

private theorem integral_remainder (d : Decimal) :
    d.isIntegral = true ↔ d.unscaled.natAbs % 10 ^ d.scale.toNat = 0 := by
  have digits := outnumbered_iff d
  rw [Decimal.isIntegral, Nat.pow_eq, Bool.or_eq_true, Bool.and_eq_true, decide_eq_true_eq,
    decide_eq_true_eq, decide_eq_true_eq, digits]
  constructor
  · rintro (zero | ⟨-, exact⟩)
    · rw [zero, Int.natAbs_zero, Nat.zero_mod]
    · exact exact
  · intro exact
    by_cases zero : d.unscaled = 0
    · exact .inl zero
    · have multiple := Nat.le_of_dvd (Int.natAbs_pos.mpr zero) (Nat.dvd_of_mod_eq_zero exact)
      exact .inr ⟨.inr multiple, exact⟩

theorem integral_iff (d : Decimal) : d.isIntegral = true ↔ ∃ z : Int, rational d = z := by
  have scale : (10 : ℚ) ^ d.scale.toNat ≠ 0 := by positivity
  have divides : ((10 ^ d.scale.toNat : Nat) : Int) ∣ d.unscaled ↔
      d.unscaled.natAbs % 10 ^ d.scale.toNat = 0 := by
    rw [← Nat.dvd_iff_mod_eq_zero, Int.natCast_dvd]
  rw [integral_remainder, ← divides]
  constructor
  · rintro ⟨z, product⟩
    refine ⟨z, ?_⟩
    rw [rational, product, div_eq_iff scale]
    push_cast
    ring
  · rintro ⟨z, number⟩
    rw [rational, div_eq_iff scale] at number
    exact ⟨z, by rw [mul_comm]; exact_mod_cast number⟩

/-! ## The digits before and behind the point -/

/-- Where the digits are cut: so many stand before the point. -/
def fore (d : Decimal) : Nat := d.digits.length - d.scale.toNat

/-- Cutting digits divides the number they write. -/
theorem digits_cut (d : Decimal) :
    natural (d.digits.take (fore d)) = d.unscaled.natAbs / 10 ^ d.scale.toNat ∧
      natural (d.digits.drop (fore d)) = d.unscaled.natAbs % 10 ^ d.scale.toNat := by
  have numeric := numeral_digits d.unscaled.natAbs
  have whole : natural d.digits = d.unscaled.natAbs := by
    rw [natural_value, Decimal.digits, value_numeral]
  by_cases few : d.digits.length ≤ d.scale.toNat
  · -- No digit stands before the point.
    have none : fore d = 0 := Nat.sub_eq_zero_of_le few
    have small : d.unscaled.natAbs < 10 ^ d.scale.toNat := by
      have digits := outnumbered_iff d
      omega
    rw [none, List.take_zero, List.drop_zero, whole, Nat.div_eq_of_lt small, Nat.mod_eq_of_lt small]
    exact ⟨rfl, rfl⟩
  · have places : (d.digits.drop (fore d)).length = d.scale.toNat := by
      rw [List.length_drop, fore]
      omega
    have behind : natural (d.digits.drop (fore d)) < 10 ^ d.scale.toNat := by
      rw [natural_value, ← places]
      exact value_bound fun c member => numeric c (List.mem_of_mem_drop member)
    rw [← List.take_append_drop (fore d) d.digits, natural_append, places] at whole
    rw [← whole, mul_comm, Nat.mul_add_div (by positivity), Nat.mul_add_mod,
      Nat.div_eq_of_lt behind, Nat.mod_eq_of_lt behind]
    exact ⟨rfl, rfl⟩

/-- There is no fraction just where nothing but zeros stands behind the point. -/
theorem integral_digits (d : Decimal) :
    d.isIntegral = true ↔ ∀ c ∈ d.digits.drop (fore d), c = '0' := by
  have numeric : AllDigits (d.digits.drop (fore d)) := fun c member =>
    numeral_digits d.unscaled.natAbs c (List.mem_of_mem_drop member)
  rw [integral_remainder, ← (digits_cut d).2]
  generalize d.digits.drop (fore d) = places at numeric
  constructor
  · intro zero c member
    have written := last_digits numeric []
    have zeros := Digits.dropWhile_lastOnto_zero places.length []
    rw [List.append_nil, ← natural_value, zero] at written
    rw [written, List.dropWhile_nil, List.dropWhile_eq_nil_iff] at zeros
    simpa using zeros c member
  · intro zeros
    rw [List.eq_replicate_of_mem zeros, natural, Nat.ofDigitChars_replicate_zero, Nat.mul_zero]

private theorem trunc_signed (d : Decimal) : d.trunc =
    if d.unscaled < 0 then -((d.unscaled.natAbs / 10 ^ d.scale.toNat : Nat) : Int)
    else ((d.unscaled.natAbs / 10 ^ d.scale.toNat : Nat) : Int) := by
  have power : ((10 ^ d.scale.toNat : Nat) : Int) = 10 ^ d.scale.toNat := by push_cast; rfl
  rw [trunc_quotient, ← power]
  split
  next negative =>
    have magnitude : d.unscaled = -(d.unscaled.natAbs : Int) := by omega
    rw [Int.ofNat_tdiv, ← Int.neg_tdiv, ← magnitude]
  next unsigned =>
    have magnitude : d.unscaled = (d.unscaled.natAbs : Int) := by omega
    rw [Int.ofNat_tdiv, ← magnitude]

/-- The digits before the point read as an integer of 128 bits, and that, under the sign of
the decimal, narrowed to 64 bits. Where no digit stands there a zero is read. -/
def narrowed? (d : Decimal) : Option Int64 :=
  let front := d.digits.take (fore d)
  match Numeral.readInteger (-2 ^ 127) (2 ^ 127 - 1) (if front = [] then ['0'] else front) with
  | .error _ => none
  | .ok n =>
    let signed := if d.unscaled < 0 then -n else n
    if -2 ^ 63 ≤ signed ∧ signed < 2 ^ 63 then some (Int64.ofInt signed) else none

/-- The digits before the point are read just when their number fits. -/
theorem front_reads (d : Decimal) (n : Int) :
    Numeral.readInteger (-2 ^ 127) (2 ^ 127 - 1)
        (if d.digits.take (fore d) = [] then ['0'] else d.digits.take (fore d)) = .ok n ↔
      n = (d.unscaled.natAbs / 10 ^ d.scale.toNat : Nat) ∧ n ≤ 2 ^ 127 - 1 := by
  have cut := (digits_cut d).1
  have numeric : AllDigits (d.digits.take (fore d)) := fun c member =>
    numeral_digits d.unscaled.natAbs c (List.mem_of_mem_take member)
  rw [natural_value] at cut
  rw [read_integer_iff (by decide) (by decide)]
  split
  next none =>
    rw [none] at cut
    have zero : Numeral.value ['0'] = d.unscaled.natAbs / 10 ^ d.scale.toNat := cut
    rw [digits_write (by simp) (by simp [AllDigits]), zero]
    omega
  next some =>
    rw [digits_write some numeric, cut]
    omega

/-- What does not fit 128 bits does not fit 64 bits either. -/
theorem trunc_narrowed (d : Decimal) : d.truncInt64? = narrowed? d := by
  have signed := trunc_signed d
  have reads := front_reads d
  rw [Decimal.truncInt64?, narrowed?]
  cases read : Numeral.readInteger (-2 ^ 127) (2 ^ 127 - 1)
      (if d.digits.take (fore d) = [] then ['0'] else d.digits.take (fore d)) with
  | error fault =>
    have large : ¬ ((d.unscaled.natAbs / 10 ^ d.scale.toNat : Nat) : Int) ≤ 2 ^ 127 - 1 := by
      intro fits
      have found := (reads _).mpr ⟨rfl, fits⟩
      rw [read] at found
      cases found
    have beyond : ¬ (-9223372036854775808 ≤ d.trunc ∧ d.trunc < 9223372036854775808) := by
      rw [signed]
      split <;> omega
    rw [if_neg beyond]
  | ok n =>
    obtain ⟨rfl, -⟩ := (reads n).mp read
    rw [signed]
    rfl

/-! ## Integer columns -/

/-- The kinds that store integers. -/
inductive IntegerKind where
  | small
  | middle
  | big

namespace IntegerKind

def kind : IntegerKind → Kind
  | small => .smallInt
  | middle => .integer
  | big => .bigInt

def bits : IntegerKind → Nat
  | small => 16
  | middle => 32
  | big => 64

/-- The integers of so many bits, one of which is for the sign. -/
def Holds (width : IntegerKind) (n : Int) : Prop :=
  -2 ^ (width.bits - 1) ≤ n ∧ n < 2 ^ (width.bits - 1)

theorem fits_iff (width : IntegerKind) (n : Int64) :
    Param.fitsKind width.kind n.toInt = true ↔ width.Holds n.toInt := by
  have low := n.le_toInt
  have high := n.toInt_lt
  cases width with
  | small => simp [Param.fitsKind, kind, Holds, bits]
  | middle => simp [Param.fitsKind, kind, Holds, bits]
  | big => exact iff_of_true rfl ⟨low, high⟩

theorem holds_zero (width : IntegerKind) : width.Holds 0 := by
  cases width <;> simp [Holds, bits]

/-- No kind of integers holds more than 64 bits do. -/
theorem held_int64 (width : IntegerKind) (held : width.Holds n) : (Int64.ofInt n).toInt = n := by
  obtain ⟨above, below⟩ := held
  apply Int64.toInt_ofInt_of_le
  · cases width <;> simp only [bits] at above <;> omega
  · cases width <;> simp only [bits] at below <;> omega

end IntegerKind

private theorem towards_zero_integer (z : Int) : towardsZero z = z := by
  rw [towardsZero]
  split
  · exact Int.floor_intCast z
  · exact Int.ceil_intCast z

/-- A decimal is an integer of 64 bits where it has no fraction and truncates to that. -/
theorem whole_int64_iff (d : Decimal) (n : Int64) :
    d.isIntegral = true ∧ d.truncInt64? = some n ↔ rational d = n.toInt := by
  rw [integral_iff, trunc_int64_iff]
  constructor
  · rintro ⟨⟨z, number⟩, truncated⟩
    rw [number, towards_zero_integer] at truncated
    rw [number, truncated]
  · intro number
    exact ⟨⟨n.toInt, number⟩, by rw [number, towards_zero_integer]⟩

theorem coerce_integer (width : IntegerKind) (value : Param) (full : value ≠ .null) :
    Param.coerce? value width.kind = Param.toInteger? width.kind value := by
  cases width <;> cases value <;> first | rfl | exact absurd rfl full

/-- A refusal is no value. -/
theorem reject_not_ok {value w : Param} : Param.reject? value target reason ≠ some (.ok w) := by
  rw [Param.reject?]
  cases value.shown? <;> simp

theorem within_kind_iff (width : IntegerKind) (value : Param) {n : Int64} {w : Param} :
    Param.withinKind? value width.kind n = some (.ok w) ↔ w = .int n ∧ width.Holds n.toInt := by
  rw [Param.withinKind?, ← width.fits_iff]
  split
  next fits =>
    refine ⟨fun ok => ?_, fun ⟨same, _⟩ => by rw [same]⟩
    cases ok
    exact ⟨rfl, fits⟩
  next beyond => exact iff_of_false reject_not_ok fun ⟨_, fits⟩ => beyond fits

/-- A decimal is taken for an integer column as the integer it is. -/
theorem decimal_accepted_iff (width : IntegerKind) (d : Decimal) (w : Param) :
    Param.coerce? (.decimal d) width.kind = some (.ok w) ↔
      ∃ n : Int64, w = .int n ∧ rational d = n.toInt ∧ width.Holds n.toInt := by
  rw [coerce_integer width _ (by simp), Param.toInteger?]
  constructor
  · intro ok
    split at ok
    · exact absurd ok reject_not_ok
    next whole =>
      split at ok
      next n truncated =>
        obtain ⟨same, held⟩ := (within_kind_iff width _).mp ok
        exact ⟨n, same, (whole_int64_iff d n).mp ⟨by simpa using whole, truncated⟩, held⟩
      · exact absurd ok reject_not_ok
  · rintro ⟨n, rfl, number, held⟩
    obtain ⟨whole, truncated⟩ := (whole_int64_iff d n).mpr number
    rw [whole, truncated, Bool.not_true, if_neg Bool.false_ne_true]
    exact (within_kind_iff width _).mpr ⟨rfl, held⟩

/-- A refusal shows the decimal and says whether the fraction or the range is at fault. -/
def refusal (width : IntegerKind) (d : Decimal) (shown : Text) : ConversionFault :=
  ⟨shown, width.kind.sqlName, if d.isIntegral then .outOfRange else .fractional⟩

private theorem reject_decimal (d : Decimal) (target : Kind) (reason : ConversionReason) :
    Param.reject? (.decimal d) target reason =
      d.display?.map fun shown => .error ⟨shown, target.sqlName, reason⟩ := by
  rw [Param.reject?, Param.shown?, Param.plainText?]
  cases d.display? <;> rfl

/-- What is not taken is refused, if it can be displayed. -/
theorem decimal_outcome (width : IntegerKind) (d : Decimal) :
    (∃ n, Param.coerce? (.decimal d) width.kind = some (.ok (.int n))) ∨
      Param.coerce? (.decimal d) width.kind =
        d.display?.map fun shown => .error (refusal width d shown) := by
  rw [coerce_integer width _ (by simp), Param.toInteger?]
  simp only [refusal]
  cases whole : d.isIntegral with
  | false => exact .inr (reject_decimal d _ _)
  | true =>
    cases d.truncInt64? with
    | none => exact .inr (reject_decimal d _ _)
    | some n =>
      simp only [Bool.not_true, Bool.false_eq_true, ↓reduceIte, Param.withinKind?]
      split
      · exact .inl ⟨n, rfl⟩
      · exact .inr (reject_decimal d _ _)

/-- A decimal is taken when its number is an integer that the kind holds. -/
theorem decimal_not_accepted (width : IntegerKind) (d : Decimal)
    (other : ¬ ∃ n : Int, rational d = n ∧ width.Holds n) :
    Param.coerce? (.decimal d) width.kind =
      d.display?.map fun shown => .error (refusal width d shown) := by
  rcases decimal_outcome width d with ⟨n, accepted⟩ | refused
  · obtain ⟨m, -, number, held⟩ := (decimal_accepted_iff width d _).mp accepted
    exact absurd ⟨m.toInt, number, held⟩ other
  · exact refused

private theorem decimal_accepted (width : IntegerKind) (d : Decimal)
    (integer : ∃ n : Int, rational d = n ∧ width.Holds n) :
    ∃ w, Param.coerce? (.decimal d) width.kind = some (.ok w) := by
  obtain ⟨n, number, held⟩ := integer
  have same := width.held_int64 held
  exact ⟨_, (decimal_accepted_iff width d (.int (Int64.ofInt n))).mpr
    ⟨_, rfl, by rw [same, number], by rwa [same]⟩⟩

theorem decimal_refused_iff (width : IntegerKind) (d : Decimal) (fault : ConversionFault) :
    Param.coerce? (.decimal d) width.kind = some (.error fault) ↔
      (¬ ∃ n : Int, rational d = n ∧ width.Holds n) ∧
        ∃ shown, d.display? = some shown ∧ fault = refusal width d shown := by
  by_cases integer : ∃ n : Int, rational d = n ∧ width.Holds n
  · obtain ⟨w, accepted⟩ := decimal_accepted width d integer
    rw [accepted]
    exact iff_of_false (by simp) fun refused => refused.1 integer
  · rw [decimal_not_accepted width d integer, and_iff_right integer, Option.map_eq_some_iff]
    simp only [Except.error.injEq, eq_comm]

/-- No integer stands between zero and one. -/
theorem between_no_integer (above : 0 < |q|) (below : |q| < 1) : ¬ ∃ n : Int, (q : ℚ) = n := by
  rintro ⟨n, rfl⟩
  have small : |n| < 1 := by exact_mod_cast below
  have some : 0 < |n| := by exact_mod_cast above
  omega

/-- There is no answer for a decimal below one that is not zero and has more places than zeros
can fill. -/
theorem decimal_unanswered_iff (width : IntegerKind) (d : Decimal) :
    Param.coerce? (.decimal d) width.kind = none ↔
      65535 < d.scale.toNat ∧ 0 < |rational d| ∧ |rational d| < 1 := by
  by_cases integer : ∃ n : Int, rational d = n ∧ width.Holds n
  · obtain ⟨w, accepted⟩ := decimal_accepted width d integer
    obtain ⟨n, number, -⟩ := integer
    rw [accepted]
    refine iff_of_false (by simp) ?_
    rintro ⟨-, above, below⟩
    exact between_no_integer above below ⟨n, number⟩
  · have some : 0 < |rational d| := by
      rw [abs_pos]
      intro zero
      exact integer ⟨0, by rw [zero, Int.cast_zero], width.holds_zero⟩
    rw [decimal_not_accepted width d integer, Option.map_eq_none_iff, not_displayed_iff,
      and_iff_right some]

private theorem one_behind_point {scale : UInt32} (some : scale.toNat ≠ 0) :
    0 < |rational ⟨1, scale⟩| ∧ |rational ⟨1, scale⟩| < 1 := by
  have large : (1 : ℚ) < 10 ^ scale.toNat := one_lt_pow₀ (by norm_num) some
  rw [magnitude_rational, Int.natAbs_one, Nat.cast_one, one_div]
  exact ⟨by positivity, inv_lt_one_of_one_lt₀ large⟩

/-- Integers are had from decimals exactly. The integer part is the number truncated towards
zero where 64 bits hold that, and there is none elsewhere; a decimal passes for integral just
when its number is an integer; the digits before and behind the point say the same; and an
integer column takes the decimals whose number is an integer it holds, as that integer, and
refuses all others that can be displayed. For a decimal below one that is not zero and has more
places than zeros can fill there is no answer. -/
theorem decimals_become_integers_exactly (d : Decimal) :
    (∀ n : Int64, d.truncInt64? = some n ↔ towardsZero (rational d) = n.toInt) ∧
    (d.truncInt64? = none ↔
      ¬ (-2 ^ 63 ≤ towardsZero (rational d) ∧ towardsZero (rational d) < 2 ^ 63)) ∧
    (d.isIntegral = true ↔ ∃ z : Int, rational d = z) ∧
    (d.truncInt64? = narrowed? d ∧
      (d.isIntegral = true ↔ ∀ c ∈ d.digits.drop (fore d), c = '0')) ∧
    ∀ width : IntegerKind,
      (∀ w, Param.coerce? (.decimal d) width.kind = some (.ok w) ↔
        ∃ n : Int64, w = .int n ∧ rational d = n.toInt ∧ width.Holds n.toInt) ∧
      (∀ fault, Param.coerce? (.decimal d) width.kind = some (.error fault) ↔
        (¬ ∃ n : Int, rational d = n ∧ width.Holds n) ∧
          ∃ shown, d.display? = some shown ∧ fault = refusal width d shown) ∧
      (Param.coerce? (.decimal d) width.kind = none ↔
        65535 < d.scale.toNat ∧ 0 < |rational d| ∧ |rational d| < 1) :=
  ⟨trunc_int64_iff d, trunc_int64_none_iff d, integral_iff d,
    ⟨trunc_narrowed d, integral_digits d⟩, fun width =>
    ⟨decimal_accepted_iff width d, decimal_refused_iff width d, decimal_unanswered_iff width d⟩⟩

/-- A one that stands too deep to be displayed is not an integer, but it is not refused. -/
theorem deep_one_is_not_refused :
    (¬ ∃ z : Int, rational ⟨1, 65536⟩ = z) ∧
      Param.coerce? (.decimal ⟨1, 65536⟩) .integer = none := by
  have deep : UInt32.toNat 65536 ≠ 0 := by decide
  obtain ⟨above, below⟩ := one_behind_point deep
  exact ⟨between_no_integer above below,
    (decimal_unanswered_iff .middle _).mpr ⟨by decide, above, below⟩⟩

end SqlWire.WholeDecimals
