import SqlWire.Proofs.CalendarGrammar

/-! Days and times print and read as inverses of each other: what is printed is a text of the
grammar of days and times, and says what was printed. Only leap seconds have no printed form of
their own. -/
namespace SqlWire.CalendarText
open CalendarGrammar NumeralText Calendar

/-! ## Printed fields -/

private theorem padded_numeral_length (pos : 0 < width) (fits : n < 10 ^ width) :
    (Text.padLeft width '0' (Numeral.ofNat n)).length = width := by
  have := (numeral_length pos).mpr fits
  rw [padded_length]
  omega

private theorem padded_not_empty (width n : Nat) :
    Text.padLeft width '0' (Numeral.ofNat n) ≠ [] := by
  intro empty
  exact numeral_not_empty n (List.append_eq_nil_iff.mp empty).2

theorem padded_value (width n : Nat) :
    Numeral.value (Text.padLeft width '0' (Numeral.ofNat n)) = n := by
  rw [value_padded, value_numeral]

theorem two_digits_digits (n : Nat) : AllDigits (Date.twoDigits n) :=
  padded_digits 2 (numeral_digits n)

theorem two_digits_length (small : n < 100) : (Date.twoDigits n).length = 2 :=
  padded_numeral_length (by decide) small

/-- Two digits are a field. -/
theorem printed_field (small : n < 100) : Field (Date.twoDigits n) n := by
  have field := digits_field (padded_not_empty 2 n) (two_digits_digits n)
    (two_digits_length small).le
  rwa [padded_value] at field

/-- A year outside `0` to `9999` is printed with a sign, and may then have more than four digits. -/
theorem printed_year (n : Int) : YearField (Date.yearText n) n := by
  have numeric : AllDigits (Text.padLeft 4 '0' (Numeral.ofNat n.natAbs)) :=
    padded_digits 4 (numeral_digits _)
  have written (sign : Sign) (short : sign = .absent → n.natAbs < 10000)
      (same : sign.factor * n.natAbs = n) :
      YearField (sign.text ++ Text.padLeft 4 '0' (Numeral.ofNat n.natAbs)) n := by
    have field := YearField.digits no_blanks sign (padded_not_empty 4 n.natAbs) numeric
      fun absent => (padded_numeral_length (by decide) (short absent)).le
    rwa [padded_value, same] at field
  rw [Date.yearText]
  split
  next negative => exact written .minus (by simp) (by simp only [Sign.factor]; omega)
  · split
    next large => exact written .plus (by simp) (by simp only [Sign.factor]; omega)
    next small => exact written .absent (by omega) (by simp only [Sign.factor]; omega)

/-! ## Days and clocks -/

private theorem printed_day (date : Date) : DayText date.toText date := by
  have months := date.month_bounds
  have days := day_fits date
  rw [Date.toText, List.append_assoc, List.cons_append]
  exact .fields (printed_year _) (printed_field (by omega)) (printed_field (by omega))

/-- A day is read back from its printed form. -/
theorem read_day_text (date : Date) : readDay date.toText = .ok date :=
  day_read_iff.mpr (printed_day date)

private theorem printed_clock (time : Time) (ordinary : time.IsOrdinary) :
    ClockText time.clockText time.hour time.minute time.second := by
  have hours := time.hour_lt
  have minutes := time.minute_lt
  have seconds := time.second_lt
  rw [Time.clockText, Nat.div_eq_of_lt ordinary, Nat.add_zero, List.append_assoc, List.cons_append]
  exact .fields (printed_field (by omega)) (printed_field (by omega)) (printed_field (by omega))
    hours minutes (by omega)

/-! ## Characters -/

/-- Digits, signs and the marks between fields: what days and times are written
in. -/
def CalendarChar (c : Char) : Prop := c.isDigit = true ∨ c ∈ ['-', '+', ':', '.', ' ']

theorem date_chars (date : Date) : ∀ c ∈ date.toText, c.isDigit = true ∨ c = '-' ∨ c = '+' := by
  have padded (width n : Nat) : AllDigits (Text.padLeft width '0' (Numeral.ofNat n)) :=
    padded_digits width (numeral_digits n)
  intro c member
  simp only [Date.toText, Date.yearText, Date.twoDigits, List.append_assoc, List.cons_append,
    List.mem_append, List.mem_cons] at member
  rcases member with year | dash | month | dash | day
  · split at year
    · rcases List.mem_cons.mp year with sign | year
      · exact .inr (.inl sign)
      · exact .inl (padded _ _ c year)
    · split at year
      · rcases List.mem_cons.mp year with sign | year
        · exact .inr (.inr sign)
        · exact .inl (padded _ _ c year)
      · exact .inl (padded _ _ c year)
  · exact .inr (.inl dash)
  · exact .inl (padded _ _ c month)
  · exact .inr (.inl dash)
  · exact .inl (padded _ _ c day)

private theorem clock_chars (time : Time) : ∀ c ∈ time.clockText, c.isDigit = true ∨ c = ':' := by
  intro c member
  simp only [Time.clockText, List.append_assoc, List.cons_append, List.mem_append,
    List.mem_cons] at member
  rcases member with hour | colon | minute | colon | second
  · exact .inl (two_digits_digits _ c hour)
  · exact .inr colon
  · exact .inl (two_digits_digits _ c minute)
  · exact .inr colon
  · exact .inl (two_digits_digits _ c second)

theorem time_chars (time : Time) :
    ∀ c ∈ time.clockText ++ time.fractionText, c.isDigit = true ∨ c = ':' ∨ c = '.' := by
  intro c member
  rcases List.mem_append.mp member with clock | fraction
  · exact (clock_chars time c clock).imp_right .inl
  · unfold Time.fractionText at fraction
    split at fraction
    · cases fraction
    · rcases List.mem_cons.mp fraction with point | fraction
      · exact .inr (.inr point)
      · exact .inl (padded_digits 9 (numeral_digits _) c fraction)

theorem stamp_chars (stamp : Timestamp) : ∀ c ∈ stamp.toText, CalendarChar c := by
  intro c member
  simp only [Timestamp.toText, List.append_assoc, List.cons_append] at member
  rcases List.mem_append.mp member with date | member
  · rcases date_chars _ c date with digit | rfl | rfl
    · exact .inl digit
    · exact .inr (by simp)
    · exact .inr (by simp)
  · rcases List.mem_cons.mp member with space | time
    · exact .inr (by simp [space])
    · rcases time_chars _ c time with digit | rfl | rfl
      · exact .inl digit
      · exact .inr (by simp)
      · exact .inr (by simp)

/-! ## Timestamps -/

/-- The fields that a timestamp prints. -/
def printedFields (stamp : Timestamp) : Fields where
  date := stamp.date
  hour := stamp.time.hour
  minute := stamp.time.minute
  second := stamp.time.second
  fraction :=
    if stamp.time.nanosecond = 0 then none
    else some (Text.padLeft 9 '0' (Numeral.ofNat stamp.time.nanosecond))

private theorem printed_point (stamp : Timestamp) :
    (printedFields stamp).point = stamp.time.fractionText := by
  rw [Fields.point, printedFields, Time.fractionText]
  split <;> rfl

private theorem printed_stamp (stamp : Timestamp) (ordinary : stamp.time.IsOrdinary) :
    StampText stamp.toText (printedFields stamp) := by
  have solid : ' ' ∉ stamp.date.toText := by
    intro member
    rcases date_chars _ _ member with digit | dash | plus
    · cases digit
    · cases dash
    · cases plus
  rw [Timestamp.toText, List.append_assoc, List.cons_append, ← printed_point]
  refine .parts (printed_day stamp.date) solid (.inl rfl) (printed_clock stamp.time ordinary) ?_
  intro digits member
  rw [printedFields] at member
  split at member
  · cases member
  · cases member
    exact ⟨padded_not_empty _ _, (padded_numeral_length (by decide) ordinary).le,
      padded_digits 9 (numeral_digits _)⟩

private theorem printed_read_as (stamp : Timestamp) (ordinary : stamp.time.IsOrdinary) :
    (printedFields stamp).ReadAs stamp := by
  have seconds := stamp.time.second_lt
  refine ⟨rfl, rfl, rfl, (min_eq_left (by omega)).symm, ?_⟩
  rw [Fields.nanosecond, printedFields]
  split
  next zero => exact zero
  next =>
    have length := padded_numeral_length (by decide : 0 < 9) ordinary
    simp only [Option.map_some, Option.getD_some, padded_value, length, Nat.sub_self, pow_zero,
      mul_one]

/-- A timestamp that is no leap second is read back from its printed form. -/
theorem read_stamp_text (stamp : Timestamp) (ordinary : stamp.time.IsOrdinary) :
    readStamp stamp.toText = .ok stamp :=
  stamp_reads (printed_stamp stamp ordinary) (printed_read_as stamp ordinary)

theorem date_not_blank (date : Date) : ∀ c ∈ date.toText, Text.isBlank c = false := by
  intro c member
  rcases date_chars date c member with digit | rfl | rfl
  · exact digit_not_blank digit
  · decide
  · decide

private theorem date_not_empty (date : Date) : date.toText ≠ [] := by
  simp [Date.toText]

private theorem clock_not_empty (time : Time) : time.clockText ≠ [] := by
  simp [Time.clockText]

private theorem time_not_blank (time : Time) :
    ∀ c ∈ time.clockText ++ time.fractionText, Text.isBlank c = false := by
  intro c member
  rcases time_chars time c member with digit | rfl | rfl
  · exact digit_not_blank digit
  · decide
  · decide

theorem stamp_start (stamp : Timestamp) : ∀ c ∈ stamp.toText.head?, Text.isBlank c = false := by
  intro c member
  rw [Timestamp.toText, List.append_assoc, List.head?_append] at member
  rcases Option.or_eq_some_iff.mp member with here | ⟨none, -⟩
  · exact date_not_blank _ c (List.mem_of_mem_head? here)
  · exact absurd (List.head?_eq_none_iff.mp none) (date_not_empty _)

theorem stamp_end (stamp : Timestamp) : ∀ c ∈ stamp.toText.getLast?, Text.isBlank c = false := by
  have split : stamp.toText = (stamp.date.toText ++ [' ']) ++
      (stamp.time.clockText ++ stamp.time.fractionText) := by
    simp [Timestamp.toText]
  intro c member
  rw [split, List.getLast?_append] at member
  rcases Option.or_eq_some_iff.mp member with here | ⟨none, -⟩
  · exact time_not_blank _ c (List.mem_of_mem_getLast? here)
  · simp [clock_not_empty] at none

/-- Only the space between day and time is a blank, and it stands at neither end. -/
theorem stamp_trimmed (stamp : Timestamp) : Text.trim stamp.toText = stamp.toText :=
  Text.trim_eq_self (stamp_start stamp) (stamp_end stamp)

end SqlWire.CalendarText
