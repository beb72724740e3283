import SqlWire.Proofs.CalendarGrammar

/-! A timestamp shows what its text says: the day, hours, minutes and seconds in the printed form,
and the fraction filled up to nine digits when it is not zero. One second is not kept. A text may
name second 60, the place of a leap second is taken by the fraction, and second 59 is shown. -/
namespace SqlWire.StampReading
open CalendarGrammar NumeralText

/-- The digits of a fraction as they are shown: none when it is zero, else nine behind a point. -/
def shownFraction (digits : Text) : Text :=
  if digits.all (· = '0') then [] else '.' :: Text.padRight 9 '0' digits

/-- The fields as they are shown. -/
def shown (fields : Fields) : Text :=
  fields.date.toText ++ ' ' :: (Date.twoDigits fields.hour ++ ':' ::
    (Date.twoDigits fields.minute ++ ':' :: (Date.twoDigits fields.second ++
      (fields.fraction.map shownFraction).getD [])))

/-- The fields with second 59 where second 60 is named. -/
def settled (fields : Fields) : Fields := { fields with second := min fields.second 59 }

/-! ## Fractions -/

/-- Zeros behind digits are powers of ten. -/
theorem filled_behind_value (digits : Text) (width : Nat) :
    Numeral.value (Text.padRight width '0' digits) =
      Numeral.value digits * 10 ^ (width - digits.length) := by
  rw [Text.padRight, value_append, Text.repeated, zeros_value, List.length_replicate, Nat.add_zero]

/-- Bringing a fraction to nanoseconds stays below `2 ^ 32` at each step, and below one second. -/
theorem scaling_fits (fraction : Fraction digits) :
    Numeral.value digits < 2 ^ 32 ∧ 10 ^ (9 - digits.length) < 2 ^ 32 ∧
      Numeral.value digits * 10 ^ (9 - digits.length) < 10 ^ 9 := by
  have whole := fraction_lt fraction
  have part : Numeral.value digits ≤ Numeral.value digits * 10 ^ (9 - digits.length) :=
    Nat.le_mul_of_pos_right _ (Nat.pow_pos (by decide))
  have power : 10 ^ (9 - digits.length) ≤ 10 ^ 9 := Nat.pow_le_pow_right (by decide) (by omega)
  exact ⟨by omega, by omega, whole⟩

/-- A fraction is shown in nine digits that name its nanoseconds. -/
theorem fraction_filled (fraction : Fraction digits) :
    Text.padLeft 9 '0' (Numeral.ofNat (Numeral.value digits * 10 ^ (9 - digits.length))) =
      Text.padRight 9 '0' digits := by
  have bound := fraction_lt fraction
  have filled : AllDigits (Text.padRight 9 '0' digits) := by
    intro c member
    rcases List.mem_append.mp member with member | zero
    · exact fraction.numeric c member
    · rw [List.eq_of_mem_replicate zero]
      decide
  have length : (Text.padRight 9 '0' digits).length = 9 := by
    have := fraction.short
    simp only [Text.padRight, Text.repeated, List.length_append, List.length_replicate]
    omega
  apply digits_unique (padded_digits 9 (numeral_digits _)) filled
  · rw [length, padded_length, max_eq_left ((numeral_length (by decide)).mpr bound)]
  · rw [value_padded, value_numeral, filled_behind_value]

/-! ## Timestamps -/

private theorem fraction_shown (written : StampText text fields) (same : fields.ReadAs stamp) :
    stamp.time.fractionText = (fields.fraction.map shownFraction).getD [] := by
  rw [Time.fractionText, same.nanosecond, Fields.nanosecond]
  cases found : fields.fraction with
  | none => rfl
  | some digits =>
    have parts := written_fraction written digits found
    have zero : Numeral.value digits * 10 ^ (9 - digits.length) = 0 ↔
        digits.all (· = '0') = true := by
      rw [Nat.mul_eq_zero, or_iff_left (Nat.pow_pos (by decide)).ne', zero_value_iff parts.numeric]
    simp only [Option.map_some, Option.getD_some, fraction_filled parts, shownFraction]
    exact if_congr zero rfl rfl

private theorem clock_shown (written : StampText text fields) (same : fields.ReadAs stamp) :
    stamp.time.clockText = Date.twoDigits fields.hour ++ ':' :: (Date.twoDigits fields.minute ++
      ':' :: Date.twoDigits (min fields.second 59)) := by
  have less : fields.nanosecond < 1000000000 := written_nanosecond written
  rw [Time.clockText, same.hour, same.minute, same.second, same.nanosecond,
    Nat.div_eq_of_lt less, Nat.add_zero, List.append_assoc, List.cons_append]

/-- A timestamp shows the fields of its text, second 60 as second 59. -/
theorem stamp_shown (written : StampText text fields) (same : fields.ReadAs stamp) :
    stamp.toText = shown (settled fields) := by
  rw [Timestamp.toText, clock_shown written same, fraction_shown written same, same.date]
  simp [shown, settled]

theorem settled_shown_iff (fields : Fields) (seconds : fields.second ≤ 60) :
    shown (settled fields) = shown fields ↔ fields.second ≠ 60 := by
  constructor
  · intro same leap
    rw [shown, shown, settled, leap] at same
    simp at same
    revert same
    decide
  · intro other
    have least : min fields.second 59 = fields.second := by omega
    rw [settled, least]

/-- The accepted timestamps are the written ones, and each shows what is written, in nine digits of
a fraction that is not zero. Only second 60 is not kept: the second before it is shown. -/
theorem stamp_shows_fields (text : Text) :
    ((∃ stamp, Value.readTimestamp text = .ok stamp) ↔
      ∃ fields, StampText (Text.trim text) fields) ∧
    ∀ stamp fields, Value.readTimestamp text = .ok stamp → StampText (Text.trim text) fields →
      stamp.toText = shown (settled fields) ∧
      (stamp.toText = shown fields ↔ fields.second ≠ 60) ∧
      ∀ digits ∈ fields.fraction, Numeral.value digits < 2 ^ 32 ∧
        10 ^ (9 - digits.length) < 2 ^ 32 ∧
        Numeral.value digits * 10 ^ (9 - digits.length) < 10 ^ 9 := by
  constructor
  · simp only [read_timestamp_ok]
    constructor
    · rintro ⟨stamp, reads⟩
      obtain ⟨fields, written, -⟩ := stamp_sound reads
      exact ⟨fields, written⟩
    · rintro ⟨fields, written⟩
      obtain ⟨stamp, reads, -⟩ := written_read written
      exact ⟨stamp, reads⟩
  · intro stamp fields reads written
    obtain ⟨other, found, same⟩ := written_read written
    rw [read_timestamp_ok, found] at reads
    cases reads
    have text := stamp_shown written same
    refine ⟨text, ?_, fun digits member => scaling_fits (written_fraction written digits member)⟩
    rw [text, settled_shown_iff fields (written_clock written).2.2]

/-- Fields of one digit, a blank before one and two digits of a fraction are shown in full. -/
theorem short_fields_are_filled :
    ∃ stamp, Value.readTimestamp "2024-1-2T3: 4:05.12".toList = .ok stamp ∧
      stamp.toText = "2024-01-02 03:04:05.120000000".toList := by
  let fields : Fields := ⟨⟨2024, 1, 2, by decide, by decide, by decide⟩, 3, 4, 5, some ['1', '2']⟩
  have day : DayText "2024-1-2".toList fields.date := day_read_iff.mp (by rfl)
  have clock : ClockText "3: 4:05".toList 3 4 5 := by
    obtain ⟨second, written, same⟩ :=
      clock_read_iff.mp (by rfl : Calendar.readClock "3: 4:05".toList = .ok (3, 4, 5))
    obtain rfl : second = 5 := by omega
    exact written
  have written : StampText (Text.trim "2024-1-2T3: 4:05.12".toList) fields :=
    .parts day (by decide) (.inr rfl) clock (by
      rintro _ ⟨⟩
      exact ⟨by decide, by decide, List.all_eq_true.mp rfl⟩)
  obtain ⟨stamp, reads⟩ := (stamp_shows_fields _).1.mpr ⟨fields, written⟩
  have text := ((stamp_shows_fields _).2 stamp fields reads written).1
  exact ⟨stamp, reads, text.trans (by decide)⟩

/-- The last second of 2016 was a leap second, and is shown as the second before it. -/
theorem leap_second_is_moved :
    ∃ fields stamp, StampText (Text.trim "2016-12-31 23:59:60".toList) fields ∧
      fields.second = 60 ∧ Value.readTimestamp "2016-12-31 23:59:60".toList = .ok stamp ∧
      shown fields = "2016-12-31 23:59:60".toList ∧
      stamp.toText = "2016-12-31 23:59:59".toList := by
  let fields : Fields := ⟨⟨2016, 12, 31, by decide, by decide, by decide⟩, 23, 59, 60, none⟩
  have day : DayText "2016-12-31".toList fields.date := day_read_iff.mp (by rfl)
  have two (digits : Text) (length : digits.length = 2) (numeric : digits.all Char.isDigit = true) :
      Field digits (Numeral.value digits) :=
    digits_field (by rintro rfl; cases length) (List.all_eq_true.mp numeric) length.le
  have clock : ClockText "23:59:60".toList 23 59 60 :=
    .fields (two ['2', '3'] rfl rfl) (two ['5', '9'] rfl rfl) (two ['6', '0'] rfl rfl)
      (by decide) (by decide) (by decide)
  have written : StampText (Text.trim "2016-12-31 23:59:60".toList) fields :=
    .parts day (by decide) (.inl rfl) clock (by simp [fields])
  obtain ⟨stamp, reads, same⟩ := written_read written
  have text := stamp_shown written same
  exact ⟨fields, stamp, written, rfl, read_timestamp_ok.mpr reads, by decide,
    text.trans (by decide)⟩

end SqlWire.StampReading
