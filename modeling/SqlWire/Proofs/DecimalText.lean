import Mathlib.Algebra.Order.Ring.Unbundled.Rat
import Mathlib.Tactic.Positivity
import SqlWire.Number.Decimal
import SqlWire.Proofs.DecimalGrammar

/-! The printed form of a decimal reads back to the same sign, digits and scale.
The digits are filled up to one more than the scale, so that a digit stands before
the point and exactly `scale` of them behind it. The form is displayed unless a decimal
below one has more places than zeros can fill. -/
namespace SqlWire.DecimalText
open NumeralText DecimalGrammar

/-- The digits filled up so that one at least is left before the point. -/
def filledDigits (d : Decimal) : Text := Text.padLeft (d.scale.toNat + 1) '0' d.digits

/-- The digits before the point. -/
def whole (d : Decimal) : Text := (filledDigits d).take ((filledDigits d).length - d.scale.toNat)

/-- The digits behind the point. -/
def fraction (d : Decimal) : Text := (filledDigits d).drop ((filledDigits d).length - d.scale.toNat)

private theorem filled_digits (d : Decimal) : AllDigits (filledDigits d) :=
  padded_digits _ (numeral_digits _)

theorem filled_length (d : Decimal) : d.scale.toNat < (filledDigits d).length := by
  rw [filledDigits, padded_length]
  omega

theorem filled_value (d : Decimal) : Numeral.value (filledDigits d) = d.unscaled.natAbs := by
  rw [filledDigits, value_padded, Decimal.digits, value_numeral]

theorem whole_fraction (d : Decimal) : whole d ++ fraction d = filledDigits d :=
  List.take_append_drop ..

theorem whole_digits (d : Decimal) : AllDigits (whole d) :=
  fun c member => filled_digits d c (List.mem_of_mem_take member)

theorem fraction_digits (d : Decimal) : AllDigits (fraction d) :=
  fun c member => filled_digits d c (List.mem_of_mem_drop member)

theorem fraction_length (d : Decimal) : (fraction d).length = d.scale.toNat := by
  have := filled_length d
  rw [fraction, List.length_drop]
  omega

theorem whole_not_empty (d : Decimal) : whole d ≠ [] := by
  have := filled_length d
  intro empty
  have lengths := congrArg List.length empty
  rw [whole, List.length_take, List.length_nil] at lengths
  omega

/-- The number without its sign. -/
def body (d : Decimal) : Text :=
  if d.scale.toNat = 0 then whole d else whole d ++ '.' :: fraction d

theorem decimal_text (d : Decimal) :
    d.toText = if d.unscaled < 0 then '-' :: body d else body d := rfl

/-- The printed form as a number of the grammar. -/
def printed (d : Decimal) : Written where
  sign := if d.unscaled < 0 then .minus else .absent
  whole := whole d
  fraction := if d.scale.toNat = 0 then none else some (fraction d)
  exponent := none
  whole_digits := whole_digits d
  fraction_digits := by
    split
    · simp [AllDigits]
    · exact fraction_digits d
  not_empty := fun empty => whole_not_empty d (List.append_eq_nil_iff.mp empty).1

private theorem printed_places (d : Decimal) : (printed d).places = fraction d := by
  change (if d.scale.toNat = 0 then none else some (fraction d)).getD [] = fraction d
  split
  next flat =>
    have lengths := fraction_length d
    rw [flat] at lengths
    exact (List.eq_nil_of_length_eq_zero lengths).symm
  · rfl

private theorem printed_mantissa (d : Decimal) : (printed d).mantissa = body d := by
  change whole d ++ (if d.scale.toNat = 0 then none else some (fraction d)).elim [] ('.' :: ·) = _
  unfold body
  split
  · exact List.append_nil _
  · rfl

/-- A number without its sign is digits and at most a point. -/
theorem body_chars (d : Decimal) : ∀ c ∈ body d, c.isDigit = true ∨ c = '.' := by
  rw [← printed_mantissa]
  exact mantissa_chars (printed d)

/-- Digits, signs and points: what a number is written in. -/
theorem decimal_chars (d : Decimal) :
    ∀ c ∈ d.toText, c.isDigit = true ∨ c = '.' ∨ c = '-' := by
  intro c member
  rw [decimal_text] at member
  split at member
  · rcases List.mem_cons.mp member with sign | member
    · exact .inr (.inr sign)
    · exact (body_chars d c member).imp_right .inl
  · exact (body_chars d c member).imp_right .inl

theorem body_starts (d : Decimal) : ∃ c rest, body d = c :: rest ∧ c.isDigit = true := by
  obtain ⟨c, rest, same⟩ := List.exists_cons_of_ne_nil (whole_not_empty d)
  have digit : c.isDigit = true := whole_digits d c (by simp [same])
  unfold body
  split
  · exact ⟨c, rest, same, digit⟩
  · exact ⟨c, rest ++ '.' :: fraction d, by rw [same, List.cons_append], digit⟩

private theorem text_not_blank (d : Decimal) : ∀ c ∈ d.toText, Text.isBlank c = false := by
  intro c member
  rcases decimal_chars d c member with digit | rfl | rfl
  · exact digit_not_blank digit
  · decide
  · decide

private theorem printed_text (d : Decimal) : (printed d).text = d.toText := by
  have plain : (printed d).exponent = none := rfl
  rw [decimal_text, Written.text, printed_mantissa, plain, Option.elim_none, List.append_nil]
  change Sign.text (if d.unscaled < 0 then .minus else .absent) ++ body d = _
  split <;> rfl

private theorem printed_placed (d : Decimal) : (printed d).placed = d := by
  have power : (printed d).power = 0 := rfl
  have scale : (printed d).placed.scale = d.scale := by
    have places : (printed d).scale = d.scale.toNat := by
      rw [Written.scale, printed_places, fraction_length, power]
      omega
    rw [placed_scale, places, UInt32.ofNat_toNat]
  have unscaled : (printed d).placed.unscaled = d.unscaled := by
    have digits : (printed d).digits = filledDigits d := by
      have zeros : ((0 : Int) - d.scale.toNat).toNat = 0 := by omega
      rw [Written.digits, printed_places, fraction_length, power, zeros, List.replicate_zero,
        List.append_nil]
      exact whole_fraction d
    rw [placed_unscaled, digits, natural_value, filled_value]
    unfold printed
    dsimp only
    split <;> simp only [Sign.factor] <;> omega
  calc (printed d).placed
      = ⟨(printed d).placed.unscaled, (printed d).placed.scale⟩ := rfl
    _ = d := by rw [unscaled, scale]

/-- The printed form of a decimal reads back to that decimal. -/
theorem read_decimal_text (d : Decimal) : Decimal.ofText d.toText = .ok d := by
  have trimmed : Text.trim d.toText = (printed d).text := by
    rw [Text.trim_eq_self_of_all (text_not_blank d), printed_text]
  rw [of_text_complete (printed d) trimmed, printed_placed]

/-- The digits outnumber the places where there are no places, and where the number is not
below one. -/
theorem outnumbered_iff (d : Decimal) : d.scale.toNat < d.digits.length ↔
    d.scale.toNat = 0 ∨ 10 ^ d.scale.toNat ≤ d.unscaled.natAbs := by
  rcases Nat.eq_zero_or_pos d.scale.toNat with flat | deep
  · have some := List.length_pos_iff.mpr (numeral_not_empty d.unscaled.natAbs)
    rw [flat, Decimal.digits]
    exact iff_of_true some (.inl rfl)
  · have length := numeral_length (n := d.unscaled.natAbs) deep
    rw [Decimal.digits, ← not_le, length, not_lt]
    exact (or_iff_right (by omega)).symm

/-! ## What is displayed -/

theorem magnitude_rational (d : Decimal) :
    |rational d| = d.unscaled.natAbs / 10 ^ d.scale.toNat := by
  rw [rational, abs_div, abs_of_pos (by positivity : (0 : ℚ) < 10 ^ d.scale.toNat),
    Nat.cast_natAbs, Int.cast_abs]

theorem not_below_one_iff (d : Decimal) :
    1 ≤ |rational d| ↔ 10 ^ d.scale.toNat ≤ d.unscaled.natAbs := by
  have scale : (0 : ℚ) < 10 ^ d.scale.toNat := by positivity
  rw [magnitude_rational, le_div_iff₀ scale, one_mul]
  exact_mod_cast Iff.rfl

/-- Only a number below one has to be filled up. -/
theorem displayable_iff (d : Decimal) :
    d.scale.toNat < d.digits.length ∨ d.scale.toNat ≤ Text.fillLimit ↔
      d.scale.toNat ≤ 65535 ∨ 1 ≤ |rational d| := by
  have limit : Text.fillLimit = 65535 := rfl
  have digits := outnumbered_iff d
  rw [not_below_one_iff, limit]
  omega

/-- A decimal is displayed in plain notation. -/
theorem displayed_iff (d : Decimal) (text : Text) :
    d.display? = some text ↔ (d.scale.toNat ≤ 65535 ∨ 1 ≤ |rational d|) ∧ text = d.toText := by
  rw [← displayable_iff, Decimal.display?]
  split
  next fits => rw [Option.some_inj, and_iff_right fits, eq_comm]
  next deep => exact iff_of_false (by simp) fun shown => deep shown.1

/-- There is nothing to display of a decimal below one with more places than zeros can fill. -/
theorem not_displayed_iff (d : Decimal) :
    d.display? = none ↔ 65535 < d.scale.toNat ∧ |rational d| < 1 := by
  rw [← not_le, ← not_le, ← not_or, ← displayable_iff, Decimal.display?]
  split
  next fits => exact iff_of_false (by simp) (not_not_intro fits)
  next deep => exact iff_of_true rfl deep

/-- Nor of a zero with one place more. -/
theorem deep_zero_hidden : Decimal.display? ⟨0, 65536⟩ = none := by
  rw [not_displayed_iff]
  exact ⟨by decide, by simp [rational]⟩

end SqlWire.DecimalText
