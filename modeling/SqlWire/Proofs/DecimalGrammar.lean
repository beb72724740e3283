import Mathlib.Algebra.Field.Rat
import Mathlib.Algebra.Order.Field.Basic
import Mathlib.Tactic.FieldSimp
import SqlWire.Proofs.NumeralText
import SqlWire.Proofs.Outcomes
import SqlWire.Value.Decode

/-! Decimal numbers are read from just the texts of their grammar, and exactly while their
scale has thirty-two bits. The number a text writes is told here in rational numbers and part
by part. The reader joins the digits of both parts instead, and places them on a scale, of which
it drops the higher bits. -/
namespace SqlWire.DecimalGrammar
open NumeralText Outcomes

/-! ## The grammar -/

/-- The number that digits write. -/
def natural (digits : Text) : Nat := Nat.ofDigitChars 10 digits 0

/-- The exponent of scientific notation. -/
structure Exponent where
  mark : Char
  sign : Sign
  digits : Text
  marks : mark = 'e' ∨ mark = 'E'
  not_empty : digits ≠ []
  numeric : AllDigits digits
  within : natural digits ≤ 4096

namespace Exponent

def text (exponent : Exponent) : Text :=
  exponent.mark :: (exponent.sign.text ++ exponent.digits)

def value (exponent : Exponent) : Int := exponent.sign.factor * natural exponent.digits

end Exponent

/-- A number in plain or scientific notation. Without a point there is no fraction; with one,
either part may be empty, but not both. -/
structure Written where
  sign : Sign
  whole : Text
  fraction : Option Text
  exponent : Option Exponent
  whole_digits : AllDigits whole
  fraction_digits : AllDigits (fraction.getD [])
  not_empty : whole ++ fraction.getD [] ≠ []

namespace Written

/-- The digits behind the point. -/
def places (n : Written) : Text := n.fraction.getD []

def mantissa (n : Written) : Text := n.whole ++ n.fraction.elim [] ('.' :: ·)

def power (n : Written) : Int := n.exponent.elim 0 Exponent.value

def text (n : Written) : Text :=
  n.sign.text ++ (n.mantissa ++ n.exponent.elim [] Exponent.text)

/-- The number written. -/
def number (n : Written) : ℚ :=
  n.sign.factor * (natural n.whole + natural n.places / 10 ^ n.places.length) * 10 ^ n.power

/-- The decimal that a reader makes of its parts. -/
def placed (n : Written) : Decimal :=
  Decimal.place (decide (n.sign = .minus)) n.whole n.places n.power

/-- The places behind the point once the exponent has moved it. -/
def scale (n : Written) : Nat := ((n.places.length : Int) - n.power).toNat

end Written

/-- The number a decimal stands for. -/
def rational (d : Decimal) : ℚ := d.unscaled / 10 ^ d.scale.toNat

/-- Digits without the zeros in front of them, one zero if there are no others. -/
def significant (digits : Text) : Text :=
  if digits.dropWhile (· = '0') = [] then ['0'] else digits.dropWhile (· = '0')

/-! ## Parts -/

theorem natural_value (digits : Text) : natural digits = Numeral.value digits :=
  (digits_value digits).symm

private theorem sign_sound (text : Text) : ∃ (sign : Sign) (body : Text), text = sign.text ++ body ∧
    Decimal.readSign text = (decide (sign = .minus), body) := by
  unfold Decimal.readSign
  split
  next body => exact ⟨.minus, body, rfl, rfl⟩
  next body => exact ⟨.plus, body, rfl, rfl⟩
  · exact ⟨.absent, text, rfl, rfl⟩

private theorem sign_complete (sign : Sign) (body : Text)
    (unsigned : ∀ c ∈ body.head?, c ∉ ['+', '-']) :
    Decimal.readSign (sign.text ++ body) = (decide (sign = .minus), body) := by
  cases sign with
  | plus => rfl
  | minus => rfl
  | absent =>
    cases body with
    | nil => rfl
    | cons c body =>
      have apart := unsigned c rfl
      unfold Decimal.readSign
      split <;> simp_all [Sign.text]

private theorem exponent_sound (marks : mark = 'e' ∨ mark = 'E')
    (reads : Decimal.readExponent text = .ok power) :
    ∃ exponent : Exponent, mark :: text = exponent.text ∧ power = exponent.value := by
  unfold Decimal.readExponent at reads
  split at reads
  · cases reads
  next found =>
    split at reads
    next within =>
      cases reads
      obtain ⟨sign, digits, rfl, some, numeric, rfl⟩ := integer_sound found
      rw [signed_magnitude, ← natural_value] at within
      rw [← natural_value]
      exact ⟨⟨mark, sign, digits, marks, some, numeric, within⟩, rfl, rfl⟩
    · cases reads

private theorem exponent_complete (exponent : Exponent) :
    Decimal.readExponent (exponent.sign.text ++ exponent.digits) = .ok exponent.value := by
  have within : exponent.value.natAbs ≤ 4096 :=
    (signed_magnitude exponent.sign _).trans_le exponent.within
  have value : exponent.value = exponent.sign.factor * Numeral.value exponent.digits := by
    rw [Exponent.value, natural_value]
  -- What the bound admits is far from the ends of the range that is read.
  have reads : Numeral.readInteger (-9223372036854775808) 9223372036854775807
      (exponent.sign.text ++ exponent.digits) = .ok exponent.value := by
    rw [value] at within ⊢
    exact integer_complete exponent.sign exponent.not_empty exponent.numeric (by omega) (by omega)
  rw [Decimal.readExponent, reads]
  exact if_pos within

private theorem parts_sound (reads : Decimal.readParts body = .ok (mantissa, power)) :
    ∃ exponent : Option Exponent, body = mantissa ++ exponent.elim [] Exponent.text ∧
      power = exponent.elim 0 Exponent.value := by
  unfold Decimal.readParts at reads
  split at reads
  · cases reads
    exact ⟨none, (List.append_nil _).symm, rfl⟩
  next front back cut =>
    obtain ⟨mark, rfl, marks, -⟩ := Text.cutAt_eq_some_iff.mp cut
    obtain ⟨value, found, same⟩ := map_ok reads
    cases same
    obtain ⟨exponent, written, rfl⟩ := exponent_sound (by simpa using marks) found
    exact ⟨exponent, by rw [written]; rfl, rfl⟩

private theorem point_sound
    (cut : (Text.cutAt (· = '.') mantissa).getD (mantissa, []) = (whole, places)) :
    ∃ fraction : Option Text, mantissa = whole ++ fraction.elim [] ('.' :: ·) ∧
      fraction.getD [] = places := by
  cases found : Text.cutAt (· = '.') mantissa with
  | none =>
    rw [found] at cut
    cases cut
    exact ⟨none, (List.append_nil _).symm, rfl⟩
  | some parts =>
    rw [found] at cut
    cases cut
    obtain ⟨point, same, stops, -⟩ := Text.cutAt_eq_some_iff.mp found
    obtain rfl : point = '.' := by simpa using stops
    exact ⟨places, same, rfl⟩

/-- Before the exponent stand digits and at most a point. -/
theorem mantissa_chars (n : Written) : ∀ c ∈ n.mantissa, c.isDigit = true ∨ c = '.' := by
  intro c member
  rcases List.mem_append.mp member with whole | behind
  · exact .inl (n.whole_digits c whole)
  · have digits := n.fraction_digits
    cases fraction : n.fraction with
    | none =>
      rw [fraction] at behind
      cases behind
    | some places =>
      rw [fraction] at behind digits
      rcases List.mem_cons.mp behind with point | inside
      · exact .inr point
      · exact .inl (digits c inside)

private theorem mantissa_starts (n : Written) : n.mantissa ≠ [] := by
  intro empty
  obtain ⟨whole, behind⟩ := List.append_eq_nil_iff.mp empty
  have some := n.not_empty
  cases fraction : n.fraction with
  | none => simp [whole, fraction] at some
  | some places => simp [fraction] at behind

private theorem parts_complete (n : Written) :
    Decimal.readParts (n.mantissa ++ n.exponent.elim [] Exponent.text) =
      .ok (n.mantissa, n.power) := by
  have clear : ∀ c ∈ n.mantissa, (c = 'e' || c = 'E') = false := by
    intro c member
    rcases mantissa_chars n c member with digit | rfl
    · have apart := digit_not_mem digit ['e', 'E'] rfl
      simpa using apart
    · rfl
  rw [Decimal.readParts, Written.power]
  cases n.exponent with
  | none =>
    rw [Option.elim_none, List.append_nil, Text.cutAt_eq_none clear]
    rfl
  | some exponent =>
    rw [Option.elim_some, Exponent.text, Text.cutAt_append clear (by simpa using exponent.marks)]
    simp only [exponent_complete]
    rfl

private theorem point_complete (n : Written) :
    (Text.cutAt (· = '.') n.mantissa).getD (n.mantissa, []) = (n.whole, n.places) := by
  have clear : ∀ c ∈ n.whole, decide (c = '.') = false := by
    intro c member
    exact decide_eq_false (digit_ne (n.whole_digits c member) rfl)
  rw [Written.mantissa, Written.places]
  cases n.fraction with
  | none =>
    rw [Option.elim_none, List.append_nil, Text.cutAt_eq_none clear]
    rfl
  | some places =>
    rw [Option.elim_some, Text.cutAt_append clear (by decide)]
    rfl

/-! ## Reading -/

private theorem of_text_sound (reads : Decimal.ofText text = .ok d) :
    ∃ n : Written, Text.trim text = n.text ∧ d = n.placed := by
  obtain ⟨sign, body, signed, split⟩ := sign_sound (Text.trim text)
  rw [Decimal.ofText, split] at reads
  obtain ⟨⟨mantissa, power⟩, found, reads⟩ := bind_ok reads
  obtain ⟨exponent, parts, rfl⟩ := parts_sound found
  dsimp only at reads
  cases cut : (Text.cutAt (· = '.') mantissa).getD (mantissa, []) with
  | mk whole places =>
    obtain ⟨fraction, pointed, rfl⟩ := point_sound cut
    rw [cut] at reads
    dsimp only at reads
    split at reads
    · cases reads
    next some =>
      split at reads
      · cases reads
      next numeric =>
        cases reads
        simp only [Bool.not_eq_true, Bool.not_eq_false', List.all_append, Bool.and_eq_true,
          List.all_eq_true] at numeric
        refine ⟨⟨sign, whole, fraction, exponent, numeric.1, numeric.2, ?_⟩, ?_, ?_⟩
        · simpa using some
        · rw [signed, parts, pointed]
          rfl
        · rfl

/-- A text is read as the digits and places it is written in. The sign ends where the mantissa
begins, which no sign begins, and the mantissa where the exponent does. -/
theorem of_text_complete (n : Written) (trimmed : Text.trim text = n.text) :
    Decimal.ofText text = .ok n.placed := by
  have unsigned : ∀ c ∈ (n.mantissa ++ n.exponent.elim [] Exponent.text).head?,
      c ∉ ['+', '-'] := by
    intro c first
    rw [List.head?_append_of_ne_nil _ (mantissa_starts n)] at first
    rcases mantissa_chars n c (List.mem_of_mem_head? first) with digit | rfl
    · exact digit_not_mem digit _ rfl
    · simp
  have some : (n.whole.isEmpty && n.places.isEmpty) = false := by
    have some := n.not_empty
    simpa [Written.places] using some
  have numeric : (n.whole ++ n.places).all Char.isDigit = true := by
    rw [List.all_append, Bool.and_eq_true, List.all_eq_true, List.all_eq_true]
    exact ⟨n.whole_digits, n.fraction_digits⟩
  rw [Decimal.ofText, trimmed, Written.text, sign_complete n.sign _ unsigned]
  dsimp only
  rw [parts_complete]
  simp only [bind, Except.bind, point_complete, some, numeric]
  rfl

/-! ## Exactness -/

theorem natural_append (front back : Text) :
    natural (front ++ back) = natural front * 10 ^ back.length + natural back := by
  simp only [natural_value, value_append]

/-- Zeros behind digits are factors of ten. -/
theorem natural_zeros (digits : Text) (count : Nat) :
    natural (digits ++ List.replicate count '0') = natural digits * 10 ^ count := by
  rw [natural_append, natural, natural, Nat.ofDigitChars_replicate_zero, List.length_replicate,
    Nat.mul_zero, Nat.add_zero]

/-- The digits of the number written, with the zeros that a large exponent puts behind them. -/
def Written.digits (n : Written) : Text :=
  n.whole ++ n.places ++ List.replicate (n.power - n.places.length).toNat '0'

private theorem written_digits (n : Written) : AllDigits n.digits := by
  intro c member
  rcases List.mem_append.mp member with written | zero
  · exact (List.mem_append.mp written).elim (n.whole_digits c) (n.fraction_digits c)
  · rw [List.eq_of_mem_replicate zero]
    rfl

theorem placed_scale (n : Written) : n.placed.scale = UInt32.ofNat n.scale := rfl

theorem placed_unscaled (n : Written) :
    n.placed.unscaled = n.sign.factor * natural n.digits := by
  have zeros : (-((n.places.length : Int) - n.power)).toNat =
      (n.power - n.places.length).toNat := by
    omega
  rw [Written.digits, natural_zeros, natural_value, Written.placed, Decimal.place]
  dsimp only
  rw [zeros, Nat.pow_eq]
  cases n.sign <;> simp [Sign.factor]

/-- A power of ten is zeros before the point or places behind it. -/
theorem ten_power (power : Int) : (10 : ℚ) ^ power = 10 ^ power.toNat / 10 ^ (-power).toNat := by
  rcases le_total 0 power with large | small
  · obtain ⟨k, rfl⟩ := Int.eq_ofNat_of_zero_le large
    simp
  · obtain ⟨k, same⟩ := Int.eq_ofNat_of_zero_le (neg_nonneg.mpr small)
    obtain rfl : power = -k := by omega
    simp

/-- The number written is the number of its digits, with the point before the last of them. -/
theorem number_placed (n : Written) : n.number = n.placed.unscaled / 10 ^ n.scale := by
  have ten : (10 : ℚ) ≠ 0 := by norm_num
  have power : (10 : ℚ) ^ n.power = 10 ^ (n.power - n.places.length).toNat /
      10 ^ n.scale * 10 ^ n.places.length := by
    have parts := ten_power (n.power - n.places.length)
    rw [neg_sub] at parts
    rw [Written.scale, ← parts, ← zpow_natCast (10 : ℚ) n.places.length, ← zpow_add₀ ten,
      sub_add_cancel]
  rw [placed_unscaled, Written.digits, natural_zeros, natural_append, Written.number, power]
  push_cast
  field_simp

/-- A scale of thirty-two bits is kept, and with it the number. -/
theorem placed_exact {n : Written} (fits : n.scale < 2 ^ 32) :
    n.placed.scale.toNat = n.scale ∧ rational n.placed = n.number := by
  have kept : n.placed.scale.toNat = n.scale := by
    rw [placed_scale, UInt32.toNat_ofNat_of_lt' fits]
  exact ⟨kept, by rw [rational, kept, number_placed]⟩

/-- On a larger scale no number but zero is kept. -/
theorem placed_wrapped {n : Written} (deep : 2 ^ 32 ≤ n.scale) :
    rational n.placed = n.number ↔ n.number = 0 := by
  have less : n.placed.scale.toNat < n.scale := n.placed.scale.toNat_lt.trans_le deep
  have powers : (10 : ℚ) ^ n.placed.scale.toNat < 10 ^ n.scale :=
    pow_lt_pow_right₀ (by norm_num) less
  have some : (10 : ℚ) ^ n.placed.scale.toNat ≠ 0 := by positivity
  have other : (10 : ℚ) ^ n.scale ≠ 0 := by positivity
  rw [rational, number_placed, div_eq_zero_iff, or_iff_left other]
  constructor
  · intro same
    rw [div_eq_div_iff some other] at same
    exact (mul_eq_mul_left_iff.mp same).resolve_left powers.ne'
  · intro zero
    rw [zero, zero_div, zero_div]

/-- A decimal is settled by its scale and the number it stands for. -/
theorem same_scale {d e : Decimal} (scale : d.scale = e.scale) (number : rational d = rational e) :
    d = e := by
  obtain ⟨unscaled, places⟩ := d
  obtain ⟨other, same⟩ := e
  dsimp only at scale
  subst scale
  have some : (10 : ℚ) ^ places.toNat ≠ 0 := pow_ne_zero _ (by norm_num)
  rw [rational, rational, div_left_inj' some, Int.cast_inj] at number
  exact congrArg (Decimal.mk · places) number

/-! ## Digits -/

/-- A number is printed with the digits it was written in, without the zeros in front. -/
theorem numeral_significant (digits : AllDigits text) :
    Numeral.ofNat (natural text) = significant text := by
  rw [natural_value, significant]
  rcases Nat.eq_zero_or_pos (Numeral.value text) with zero | positive
  · have written := last_digits digits []
    have nothing := Digits.dropWhile_lastOnto_zero text.length []
    rw [zero, List.append_nil] at written
    rw [written] at nothing
    rw [zero, nothing]
    rfl
  · rw [zeros_dropped digits positive, if_neg (numeral_not_empty _)]

private theorem placed_digits (n : Written) : n.placed.digits = significant n.digits := by
  rw [Decimal.digits, placed_unscaled, signed_magnitude, numeral_significant (written_digits n)]

/-- Only zero has a leading zero. -/
theorem significant_starts (digits : Text) :
    significant digits = ['0'] ∨ (significant digits).head? ≠ some '0' := by
  unfold significant
  split
  · exact .inl rfl
  · refine .inr fun first => ?_
    have stops := List.head?_dropWhile_not (· = '0') digits
    rw [first] at stops
    cases stops

private theorem zero_digits (d : Decimal) : d.digits = ['0'] ↔ d.unscaled = 0 := by
  constructor
  · intro zero
    have value := value_numeral d.unscaled.natAbs
    rw [← Decimal.digits, zero] at value
    exact Int.natAbs_eq_zero.mp value.symm
  · intro zero
    rw [Decimal.digits, zero]
    rfl

private theorem placed_sign (n : Written) :
    n.placed.unscaled < 0 ↔ n.sign = .minus ∧ n.placed.digits ≠ ['0'] := by
  rw [ne_eq, zero_digits, placed_unscaled]
  cases n.sign with
  | absent => simp [Sign.factor]
  | plus => simp [Sign.factor]
  | minus => simp [Sign.factor, Nat.pos_iff_ne_zero]

/-- A decimal is settled by its sign, its digits and its scale. -/
theorem same_parts (d e : Decimal) :
    d = e ↔ (d.unscaled < 0 ↔ e.unscaled < 0) ∧ d.digits = e.digits ∧ d.scale = e.scale := by
  constructor
  · rintro rfl
    exact ⟨Iff.rfl, rfl, rfl⟩
  · rintro ⟨sign, digits, scale⟩
    have magnitude := congrArg Numeral.value digits
    rw [Decimal.digits, Decimal.digits, value_numeral, value_numeral] at magnitude
    have unscaled : d.unscaled = e.unscaled := by omega
    calc d = ⟨d.unscaled, d.scale⟩ := rfl
      _ = e := by rw [unscaled, scale]

/-! ## The reader of decimals -/

/-- A decimal keeps the digits written, without zeros in front, their sign, but that of zero,
and of the scale the lowest thirty-two bits. -/
structure Keeps (n : Written) (d : Decimal) : Prop where
  digits : d.digits = significant n.digits
  sign : d.unscaled < 0 ↔ n.sign = .minus ∧ d.digits ≠ ['0']
  scale : (d.scale.toNat : Int) = max 0 (n.places.length - n.power) % 2 ^ 32

/-- A decimal is the number written, on the scale it is written on. -/
structure Exact (n : Written) (d : Decimal) : Prop where
  number : rational d = n.number
  scale : (d.scale.toNat : Int) = max 0 (n.places.length - n.power)

private theorem scale_written (n : Written) :
    (n.scale : Int) = max 0 (n.places.length - n.power) := by
  rw [Written.scale]
  omega

private theorem placed_keeps (n : Written) : Keeps n n.placed where
  digits := placed_digits n
  sign := placed_sign n
  scale := by
    rw [← scale_written, placed_scale, UInt32.toNat_ofNat']
    push_cast
    rfl

theorem keeps_iff (n : Written) (d : Decimal) : Keeps n d ↔ d = n.placed := by
  constructor
  · rintro ⟨digits, sign, scale⟩
    have placed := placed_keeps n
    refine (same_parts d n.placed).mpr ⟨?_, digits.trans placed.digits.symm, ?_⟩
    · rw [sign, placed.sign, digits, placed.digits]
    · apply UInt32.toNat.inj
      rw [← Int.natCast_inj, scale, placed.scale]
  · rintro rfl
    exact placed_keeps n

/-- Just a scale of thirty-two bits is kept. -/
theorem placed_exact_iff (n : Written) :
    Exact n n.placed ↔ max 0 (n.places.length - n.power) < (2 : Int) ^ 32 := by
  rw [← scale_written]
  constructor
  · rintro ⟨-, scale⟩
    have bits := n.placed.scale.toNat_lt
    rw [← scale_written] at scale
    omega
  · intro fits
    obtain ⟨scale, number⟩ := placed_exact (n := n) (by omega)
    exact ⟨number, by rw [scale, scale_written]⟩

theorem placed_number_iff (n : Written) : rational n.placed = n.number ↔
    max 0 (n.places.length - n.power) < (2 : Int) ^ 32 ∨ n.number = 0 := by
  rw [← scale_written]
  rcases Nat.lt_or_ge n.scale (2 ^ 32) with fits | deep
  · exact iff_of_true (placed_exact fits).2 (.inl (by exact_mod_cast fits))
  · rw [placed_wrapped deep, or_iff_right (by omega)]

theorem of_text_iff : Decimal.ofText text = .ok d ↔
    ∃ n : Written, Text.trim text = n.text ∧ d = n.placed := by
  constructor
  · exact of_text_sound
  · rintro ⟨n, trimmed, rfl⟩
    exact of_text_complete n trimmed

theorem read_decimal_ok : Value.readDecimal text = .ok d ↔ Decimal.ofText text = .ok d := by
  rw [Value.readDecimal, Value.refuse]
  cases Decimal.ofText text <;> simp [Except.mapError]

/-- A decimal is read from just the texts that write one, with the digits and the sign written
and a scale of thirty-two bits. It is the number written, on the scale it is written on, where
that scale has no more bits; otherwise the scale is another, and the number too unless it is
zero. Any other text is refused as no `DECIMAL`. -/
theorem decimal_read_exactly (text : Text) :
    (∀ d, Value.readDecimal text = .ok d ↔ ∃ n : Written, Text.trim text = n.text ∧ Keeps n d) ∧
    (∀ d n, Value.readDecimal text = .ok d → Text.trim text = n.text →
      (Exact n d ↔ max 0 (n.places.length - n.power) < (2 : Int) ^ 32) ∧
      (rational d = n.number ↔
        max 0 (n.places.length - n.power) < (2 : Int) ^ 32 ∨ n.number = 0)) ∧
    (∀ d, Value.readDecimal text = .ok d →
      (d.digits = ['0'] ∨ d.digits.head? ≠ some '0') ∧ (d.digits = ['0'] → ¬ d.unscaled < 0)) ∧
    ((∀ n : Written, Text.trim text ≠ n.text) → ∃ fault : Decimal.Fault,
      Value.readDecimal text = .error ⟨text, "DECIMAL".toList, .decimal fault⟩) := by
  refine ⟨fun d => ?_, fun d n reads trimmed => ?_, fun d reads => ?_, fun other => ?_⟩
  · simp only [read_decimal_ok, of_text_iff, keeps_iff]
  · rw [read_decimal_ok, of_text_complete n trimmed] at reads
    cases reads
    exact ⟨placed_exact_iff n, placed_number_iff n⟩
  · obtain ⟨n, -, rfl⟩ := of_text_iff.mp (read_decimal_ok.mp reads)
    refine ⟨?_, fun zero => ?_⟩
    · rw [placed_digits]
      exact significant_starts n.digits
    · rw [(zero_digits _).mp zero]
      exact lt_irrefl 0
  · cases result : Decimal.ofText text with
    | ok d =>
      obtain ⟨n, trimmed, -⟩ := of_text_sound result
      exact absurd trimmed (other n)
    | error fault =>
      refine ⟨fault, ?_⟩
      rw [Value.readDecimal, result]
      rfl

/-- The exponent moves the point past the places there are. -/
theorem scientific_read : Value.readDecimal " -0.5e3 ".toList = .ok ⟨-500, 0⟩ ∧
    ∃ n : Written, Text.trim " -0.5e3 ".toList = n.text ∧ Exact n ⟨-500, 0⟩ := by
  let exponent : Exponent :=
    ⟨'e', .absent, ['3'], .inl rfl, by simp, by simp [AllDigits], by decide⟩
  let n : Written := ⟨.minus, ['0'], some ['5'], some exponent, by simp [AllDigits],
    by simp [AllDigits], by simp⟩
  have reads : Value.readDecimal " -0.5e3 ".toList = .ok ⟨-500, 0⟩ := rfl
  have trimmed : Text.trim " -0.5e3 ".toList = n.text := rfl
  obtain ⟨-, exactly, -⟩ := decimal_read_exactly " -0.5e3 ".toList
  exact ⟨reads, n, trimmed, (exactly _ n reads trimmed).1.mpr (by decide)⟩

private theorem zeros_one_digits (zeros : Nat) : AllDigits (List.replicate zeros '0' ++ ['1']) := by
  intro c member
  rcases List.mem_append.mp member with zero | one
  · rw [List.eq_of_mem_replicate zero]
    rfl
  · rw [List.mem_singleton.mp one]
    rfl

/-- A one in the place behind so many zeros. -/
private def lastPlace (zeros : Nat) : Written where
  sign := .absent
  whole := ['0']
  fraction := some (List.replicate zeros '0' ++ ['1'])
  exponent := none
  whole_digits := by simp [AllDigits]
  fraction_digits := zeros_one_digits zeros
  not_empty := by simp

private theorem last_place_text (zeros : Nat) :
    (lastPlace zeros).text = '0' :: '.' :: (List.replicate zeros '0' ++ ['1']) := by
  simp [lastPlace, Written.text, Written.mantissa, Sign.text]

private theorem last_place_trimmed (zeros : Nat) :
    Text.trim (lastPlace zeros).text = (lastPlace zeros).text := by
  rw [last_place_text]
  apply Text.trim_eq_self_of_all
  rw [List.forall_mem_cons, List.forall_mem_cons]
  exact ⟨by decide, by decide, fun c member => digit_not_blank (zeros_one_digits zeros c member)⟩

private theorem last_place_scale (zeros : Nat) : (lastPlace zeros).scale = zeros + 1 := by
  simp [Written.scale, lastPlace, Written.places, Written.power]

private theorem last_place_unscaled (zeros : Nat) : (lastPlace zeros).placed.unscaled = 1 := by
  have one : natural ['1'] = 1 := rfl
  have digits : (lastPlace zeros).digits = List.replicate (zeros + 1) '0' ++ ['1'] := by
    simp [Written.digits, lastPlace, Written.places, Written.power, List.replicate_succ]
  rw [placed_unscaled, digits, natural_append, one, natural, Nat.ofDigitChars_replicate_zero]
  rfl

private theorem last_place_wraps (full : zeros + 1 = 2 ^ 32) :
    (lastPlace zeros).placed = ⟨1, 0⟩ ∧ (lastPlace zeros).number < rational ⟨1, 0⟩ := by
  have wrapped : (lastPlace zeros).placed = ⟨1, 0⟩ := by
    have scale : (lastPlace zeros).placed.scale = 0 := by
      rw [placed_scale, last_place_scale, full]
      rfl
    calc (lastPlace zeros).placed
        = ⟨(lastPlace zeros).placed.unscaled, (lastPlace zeros).placed.scale⟩ := rfl
      _ = ⟨1, 0⟩ := by rw [last_place_unscaled, scale]
  have ten : (1 : ℚ) < 10 ^ (zeros + 1) := one_lt_pow₀ (by norm_num) (Nat.succ_ne_zero zeros)
  refine ⟨wrapped, ?_⟩
  rw [number_placed, last_place_scale, last_place_unscaled, rational, UInt32.toNat_zero, pow_zero]
  simpa using (div_lt_one (by positivity)).mpr ten

/-- A one in a place whose number has more than thirty-two bits is read as one. -/
theorem deep_one_wraps :
    let text := '0' :: '.' :: (List.replicate (2 ^ 32 - 1) '0' ++ ['1'])
    Value.readDecimal text = .ok ⟨1, 0⟩ ∧ ∃ n : Written, Text.trim text = n.text ∧
      max 0 (n.places.length - n.power) = (2 : Int) ^ 32 ∧ n.number < rational ⟨1, 0⟩ := by
  obtain ⟨zeros, many⟩ : ∃ zeros, zeros = 2 ^ 32 - 1 := ⟨_, rfl⟩
  have full : zeros + 1 = 2 ^ 32 := by omega
  rw [← many, ← last_place_text]
  obtain ⟨placed, less⟩ := last_place_wraps full
  refine ⟨?_, lastPlace zeros, last_place_trimmed zeros, ?_, less⟩
  · rw [read_decimal_ok, of_text_complete _ (last_place_trimmed zeros), placed]
  · rw [← scale_written, last_place_scale, full]
    rfl

end SqlWire.DecimalGrammar
