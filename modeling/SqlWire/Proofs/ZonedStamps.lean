import SqlWire.Proofs.CalendarText
import SqlWire.Proofs.Instants
import SqlWire.Proofs.OffsetGrammar

/-! A timestamp with an offset prints and reads back, and stands for the instant its wall time less
its offset names. The sign of the offset is looked for behind ten characters, and a year of six
digits puts a sign of the day there: such a timestamp is read, but its printed form is not. -/
namespace SqlWire.ZonedStamps
open CalendarGrammar CalendarText OffsetGrammar Instants NumeralText Outcomes

/-! ## Printed offsets -/

private theorem two_digits_value (n : Nat) :
    Numeral.value (Date.twoDigits n) = n := padded_value 2 n

/-- An offset prints as hours and minutes that come to its seconds. -/
theorem printed_offset (offset : Offset) : ∃ written : SignedOffset,
    offset.toText = written.text ∧ offset.seconds = written.seconds := by
  have bounds := offset.bounds
  let size := offset.minutes.natAbs
  let hours := Date.twoDigits (size / 60)
  let minutes := Date.twoDigits (size % 60)
  have numeric : AllDigits (hours ++ minutes) := by
    intro c member
    exact (List.mem_append.mp member).elim (two_digits_digits _ c) (two_digits_digits _ c)
  have two : hours.length = 2 := two_digits_length (by omega)
  have pair : minutes.length = 2 := two_digits_length (by omega)
  have kept (n : Nat) : (Date.twoDigits n).filter (· != ':') = Date.twoDigits n :=
    digits_kept (two_digits_digits n)
  have bare : (hours ++ ':' :: minutes).filter (· != ':') = hours ++ minutes := by
    rw [List.filter_append, List.filter_cons_of_neg (by simp), kept, kept]
  have seconds (sign : Sign) (negative : sign.factor * size = offset.minutes) :
      offset.seconds =
        sign.factor * (3600 * Numeral.value hours + 60 * Numeral.value minutes) := by
    rw [Offset.seconds, two_digits_value, two_digits_value, ← negative, mul_assoc]
    congr 1
    omega
  by_cases negative : offset.minutes < 0
  · refine ⟨⟨.minus, hours, minutes, _, by simp, numeric, two, .inr pair, bare⟩, ?_,
      seconds .minus (by simp [Sign.factor]; omega)⟩
    rw [Offset.toText, if_pos negative]
    rfl
  · refine ⟨⟨.plus, hours, minutes, _, by simp, numeric, two, .inr pair, bare⟩, ?_,
      seconds .plus (by simp [Sign.factor]; omega)⟩
    rw [Offset.toText, if_neg negative]
    rfl

/-! ## Where the signs of a printed day stand -/

private theorem year_text_length (year : Int) :
    (Date.yearText year).length ≤ 6 ↔ year.natAbs < 100000 := by
  have filled := padded_length 4 (Numeral.ofNat year.natAbs)
  have five : (Numeral.ofNat year.natAbs).length ≤ 5 ↔ year.natAbs < 10 ^ 5 :=
    numeral_length (by decide)
  have four : (Numeral.ofNat year.natAbs).length ≤ 4 ↔ year.natAbs < 10 ^ 4 :=
    numeral_length (by decide)
  rw [Date.yearText]
  split
  · rw [List.length_cons]
    omega
  · split
    · rw [List.length_cons]
      omega
    · omega

private theorem digit_no_sign (digit : c.isDigit = true) : isSign c = false := by
  simpa [isSign] using digit_not_mem digit ['+', '-'] rfl

theorem early_iff (sign : isSign s = true) (clear : ∀ c ∈ back, isSign c = false) :
    SignsEarly (front ++ s :: back) ↔ front.length < 10 := by
  constructor
  · intro early
    by_contra long
    rw [SignsEarly, List.drop_append_of_le_length (by omega)] at early
    rw [early s (by simp)] at sign
    cases sign
  · intro short c member
    rw [List.drop_append, List.drop_eq_nil_of_le (by omega), List.nil_append] at member
    obtain ⟨n, eq⟩ : ∃ n, 10 - front.length = n + 1 := ⟨9 - front.length, by omega⟩
    rw [eq, List.drop_succ_cons] at member
    exact clear c (List.mem_of_mem_drop member)

theorem printed_early_iff (stamp : Timestamp) :
    SignsEarly stamp.toText ↔ stamp.date.year.natAbs < 100000 := by
  have month := two_digits_length (show stamp.date.month < 100 by
    have := stamp.date.month_bounds
    omega)
  have parts : stamp.toText = (Date.yearText stamp.date.year ++ '-' :: Date.twoDigits
      stamp.date.month) ++ '-' :: (Date.twoDigits stamp.date.day ++ ' ' ::
        (stamp.time.clockText ++ stamp.time.fractionText)) := by
    simp [Timestamp.toText, Date.toText]
  rw [parts, early_iff rfl ?_, ← year_text_length, List.length_append, List.length_cons, month]
  · omega
  · intro c member
    rcases List.mem_append.mp member with day | member
    · exact digit_no_sign (two_digits_digits _ c day)
    · rcases List.mem_cons.mp member with rfl | time
      · rfl
      · rcases time_chars _ c time with digit | rfl | rfl
        · exact digit_no_sign digit
        · rfl
        · rfl

/-! ## Reading back -/

private theorem zoned_ordinary (reads : Value.readTimestampTz text = .ok zoned) :
    zoned.wall.time.IsOrdinary := by
  rw [zoned_ok_iff, zoned_read_iff] at reads
  obtain ⟨wall, -, stampRead⟩ := reads
  exact stamp_ordinary stampRead

/-- What is read of a printed timestamp with an offset. -/
theorem printed_read (zoned : ZonedTimestamp) (ordinary : zoned.wall.time.IsOrdinary) :
    Value.readTimestampTz zoned.toText =
      if zoned.wall.date.year.natAbs < 100000 then .ok zoned
      else .error ⟨zoned.toText, Kind.timestampTz.sqlName, .calendar .invalidOffset⟩ := by
  obtain ⟨written, offset, offsetSeconds⟩ := printed_offset zoned.offset
  have solid := written_solid written
  obtain ⟨s, sign, starts⟩ := signed_text written
  rw [starts] at offset solid
  have text : zoned.toText = zoned.wall.toText ++ s :: written.body := by
    rw [ZonedTimestamp.toText, offset]
  have start := Text.trimStart_eq_self (stamp_start zoned.wall)
  have stop := Text.trimEnd_eq_self (stamp_end zoned.wall)
  have wall : Calendar.readStamp (Text.trimEnd zoned.wall.toText) = .ok zoned.wall := by
    rw [stop, read_stamp_text zoned.wall ordinary]
  obtain ⟨fields, stamp, -⟩ := stamp_sound wall
  have trimmed : Text.trim zoned.toText = zoned.toText := by
    rw [text, trim_behind, start]
    · rw [start]
      simp [Timestamp.toText]
    · exact fun c member => (solid c (List.mem_of_mem_getLast? member)).1
  split
  next short =>
    rw [zoned_ok_iff, trimmed, text]
    exact (behind_read_iff stamp wall (.inr sign)).mpr ⟨rfl, .inr ⟨written, starts.symm,
      offsetSeconds, (printed_early_iff zoned.wall).mpr short⟩⟩
  next long =>
    have last : (zoned.wall.toText ++ s :: written.body).getLast? ≠ some 'Z' := by
      rw [List.getLast?_append_cons]
      exact fun last => (solid 'Z' (List.mem_of_mem_getLast? last)).2.2 rfl
    have late := late_sign_refused stamp (mt (printed_early_iff zoned.wall).mp long) last
    rw [Value.readTimestampTz, trimmed, text, late]
    rfl

/-- The universal time of a timestamp read with an offset is the one timestamp that is earlier by
the offset than the wall time, and its printed form is read back as itself, if its year has at most
five digits; else it is refused. -/
theorem zoned_reads_back (text : Text) (zoned : ZonedTimestamp)
    (reads : Value.readTimestampTz text = .ok zoned) :
    (∀ stamp, stamp = zoned.universal ↔
      seconds stamp = seconds zoned.wall - zoned.offset.seconds ∧
        stamp.time.nanosecond = zoned.wall.time.nanosecond) ∧
    Value.readTimestampTz zoned.toText =
      if zoned.wall.date.year.natAbs < 100000 then .ok zoned
      else .error ⟨zoned.toText, Kind.timestampTz.sqlName, .calendar .invalidOffset⟩ := by
  refine ⟨fun stamp => ?_, printed_read zoned (zoned_ordinary reads)⟩
  obtain ⟨earlier, nanosecond⟩ := universal_seconds zoned
  constructor
  · rintro rfl
    exact ⟨earlier, nanosecond⟩
  · rintro ⟨same, fraction⟩
    exact seconds_unique (same.trans earlier.symm) (fraction.trans nanosecond.symm)

/-- A timestamp before the first year, with an offset to the west, is read back. -/
theorem western_stamp_reads_back :
    ∃ zoned, Value.readTimestampTz "-12345-1-2T3:04:05.25-0830".toList = .ok zoned ∧
      zoned.toText = "-12345-01-02 03:04:05.250000000-08:30".toList ∧
      Value.readTimestampTz zoned.toText = .ok zoned := by
  let zoned : ZonedTimestamp := ⟨⟨⟨-12345, 1, 2, by decide, by decide, by decide⟩,
    ⟨3, 4, 5, 250000000, by decide, by decide, by decide, by decide, by decide⟩⟩,
    ⟨-510, by decide⟩, by decide⟩
  have reads : Value.readTimestampTz "-12345-1-2T3:04:05.25-0830".toList = .ok zoned := by rfl
  exact ⟨zoned, reads, by decide, (zoned_reads_back _ zoned reads).2.trans (if_pos (by decide))⟩

/-- In the year 100000 a timestamp is read, and its printed form is refused. -/
theorem six_digit_year_is_refused :
    ∃ zoned, Value.readTimestampTz "+100000-01-02 03:04:05Z".toList = .ok zoned ∧
      zoned.toText = "+100000-01-02 03:04:05+00:00".toList ∧
      Value.readTimestampTz zoned.toText =
        .error ⟨zoned.toText, Kind.timestampTz.sqlName, .calendar .invalidOffset⟩ := by
  let zoned : ZonedTimestamp := ⟨⟨⟨100000, 1, 2, by decide, by decide, by decide⟩,
    ⟨3, 4, 5, 0, by decide, by decide, by decide, by decide, by decide⟩⟩, .zero, by decide⟩
  have reads : Value.readTimestampTz "+100000-01-02 03:04:05Z".toList = .ok zoned := by rfl
  exact ⟨zoned, reads, by decide,
    (printed_read zoned (zoned_ordinary reads)).trans (if_neg (by decide))⟩

end SqlWire.ZonedStamps
