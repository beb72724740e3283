import SqlWire.Proofs.OffsetGrammar

/-! The offsets that are accepted behind a timestamp are more than the documented ones: a colon may
stand anywhere behind the sign, and minutes may go up to 99. What is read of each is its hours and
minutes; every other text behind a timestamp is refused. -/
namespace SqlWire.OffsetReading
open CalendarGrammar OffsetGrammar NumeralText Outcomes

/-! ## Documented offsets -/

def TwoDigits (digits : Text) : Prop := AllDigits digits ∧ digits.length = 2

/-- The documented offsets and their seconds: `Z`, or `HH`, `HHMM` or `HH:MM` behind a sign. -/
inductive Documented : Text → Int → Prop where
  | universal : Documented ['Z'] 0
  | hours {sign : Sign} (signed : sign ≠ .absent) (hour : TwoDigits hours)
      (hour_le : Numeral.value hours ≤ 23) :
      Documented (sign.text ++ hours) (sign.factor * (3600 * Numeral.value hours))
  | minutes {sign : Sign} (signed : sign ≠ .absent) (hour : TwoDigits hours)
      (minute : TwoDigits minutes) (hour_le : Numeral.value hours ≤ 23)
      (minute_le : Numeral.value minutes ≤ 59) (colon : between = [] ∨ between = [':']) :
      Documented (sign.text ++ (hours ++ (between ++ minutes)))
        (sign.factor * (3600 * Numeral.value hours + 60 * Numeral.value minutes))

/-- Minutes of an hour, and a colon between hours and minutes or none. -/
structure Orderly (written : SignedOffset) : Prop where
  minute_le : Numeral.value written.minutes ≤ 59
  colon : written.body = written.hours ++ written.minutes ∨
    written.minutes ≠ [] ∧ written.body = written.hours ++ ':' :: written.minutes

private theorem no_digits_value : Numeral.value [] = 0 := rfl

private theorem documented_orderly (documented : Documented text seconds) :
    text = ['Z'] ∧ seconds = 0 ∨
      ∃ written : SignedOffset, text = written.text ∧ seconds = written.seconds ∧
        Orderly written := by
  cases documented with
  | universal => exact .inl ⟨rfl, rfl⟩
  | @hours hours sign signed hour hour_le =>
    have bare : hours.filter (· != ':') = hours ++ [] := by
      rw [digits_kept hour.1, List.append_nil]
    have seconds : sign.factor * (3600 * Numeral.value hours) =
        sign.factor * (3600 * Numeral.value hours + 60 * Numeral.value []) := by
      rw [no_digits_value, Nat.cast_zero, mul_zero, add_zero]
    exact .inr ⟨⟨sign, hours, [], hours, signed, by simpa using hour.1, hour.2, .inl rfl, bare⟩,
      rfl, seconds, no_digits_value.trans_le (Nat.zero_le _), .inl (List.append_nil _).symm⟩
  | @minutes hours minutes between sign signed hour minute hour_le minute_le colon =>
    have numeric : AllDigits (hours ++ minutes) := by
      intro c member
      exact (List.mem_append.mp member).elim (hour.1 c) (minute.1 c)
    have bare : (hours ++ (between ++ minutes)).filter (· != ':') = hours ++ minutes := by
      rw [List.filter_append, List.filter_append, digits_kept hour.1, digits_kept minute.1]
      rcases colon with rfl | rfl <;> rfl
    have some : minutes ≠ [] := by
      rintro rfl
      cases minute.2
    refine .inr ⟨⟨sign, hours, minutes, _, signed, numeric, hour.2, .inr minute.2, bare⟩,
      rfl, rfl, minute_le, ?_⟩
    rcases colon with rfl | rfl
    · exact .inl rfl
    · exact .inr ⟨some, rfl⟩

/-- The hours of an orderly offset are those of a day. -/
theorem orderly_documented {offset : Offset} {written : SignedOffset}
    (same : offset.seconds = written.seconds) (orderly : Orderly written) :
    Documented written.text offset.seconds := by
  have bounds := offset.bounds
  have hour_le : Numeral.value written.hours ≤ 23 := by
    rw [Offset.seconds, SignedOffset.seconds] at same
    cases sign : written.sign <;> simp only [sign, Sign.factor] at same <;> omega
  have hour : TwoDigits written.hours :=
    ⟨fun c member => written.numeric c (List.mem_append_left _ member), written.two⟩
  rw [same, SignedOffset.text, SignedOffset.seconds]
  rcases written.none_or_two with none | two
  · have none := List.eq_nil_of_length_eq_zero none
    have body : written.body = written.hours := by
      rcases orderly.colon with plain | ⟨some, -⟩
      · rw [plain, none, List.append_nil]
      · exact absurd none some
    have documented := Documented.hours written.signed hour hour_le
    rwa [body, none, no_digits_value, Nat.cast_zero, mul_zero, add_zero]
  · have minute : TwoDigits written.minutes :=
      ⟨fun c member => written.numeric c (List.mem_append_right _ member), two⟩
    rcases orderly.colon with plain | ⟨-, colon⟩
    · rw [plain]
      exact .minutes written.signed hour minute hour_le orderly.minute_le (.inl rfl)
    · rw [colon]
      exact .minutes written.signed hour minute hour_le orderly.minute_le (.inr rfl)

/-- Hours, minutes and sign are determined by the text. -/
theorem written_unique {one other : SignedOffset} (same : one.text = other.text) :
    one = other := by
  obtain ⟨sign, hours, minutes, body, signed, numeric, two, pair, bare⟩ := one
  obtain ⟨sign', hours', minutes', body', signed', numeric', two', pair', bare'⟩ := other
  obtain ⟨rfl, rfl⟩ : sign = sign' ∧ body = body' := by
    cases sign with
    | absent => exact absurd rfl signed
    | plus =>
      cases sign' with
      | absent => exact absurd rfl signed'
      | plus => exact ⟨rfl, (List.cons.inj same).2⟩
      | minus => cases (List.cons.inj same).1
    | minus =>
      cases sign' with
      | absent => exact absurd rfl signed'
      | plus => cases (List.cons.inj same).1
      | minus => exact ⟨rfl, (List.cons.inj same).2⟩
  obtain ⟨rfl, rfl⟩ := List.append_inj (bare.symm.trans bare') (two.trans two'.symm)
  rfl

private theorem signed_not_universal (written : SignedOffset) : ['Z'] ≠ written.text := by
  intro same
  obtain ⟨s, sign, text⟩ := signed_text written
  rw [text] at same
  rw [← (List.cons.inj same).1] at sign
  cases sign

/-! ## Reading -/

/-- A timestamp is followed by `Z`, or by a sign with hours and minutes in which colons may stand
anywhere, if it is to be read with an offset; the sign is missed where the day of the timestamp has
a later one than the tenth character. The documented offsets are those of minutes below 60 with a
colon between hours and minutes or none. -/
theorem offsets_read (front behind : Text) (stamp : Timestamp)
    (reads : Value.readTimestamp front = .ok stamp)
    (start : ∃ c ∈ behind.head?, c = 'Z' ∨ isSign c = true)
    (solid : ∀ c ∈ behind.getLast?, Text.isBlank c = false) :
    (∀ zoned, Value.readTimestampTz (front ++ behind) = .ok zoned ↔
      zoned.wall = stamp ∧ (behind = ['Z'] ∧ zoned.offset = .zero ∨
        ∃ written : SignedOffset, behind = written.text ∧
          zoned.offset.seconds = written.seconds ∧ SignsEarly (Text.trimStart front))) ∧
    (∀ zoned, Value.readTimestampTz (front ++ behind) = .ok zoned →
      (Documented behind zoned.offset.seconds ↔
        behind = ['Z'] ∨ ∃ written : SignedOffset, behind = written.text ∧ Orderly written)) ∧
    ∀ fault, Value.readTimestampTz (front ++ behind) = .error fault →
      fault.target = Kind.timestampTz.sqlName := by
  obtain ⟨c, first, begins⟩ := start
  obtain ⟨rest, rfl⟩ : ∃ rest, behind = c :: rest := by
    cases behind with
    | nil => cases first
    | cons d rest =>
      cases first
      exact ⟨rest, rfl⟩
  rw [read_timestamp_ok, Text.trim] at reads
  obtain ⟨fields, written, -⟩ := stamp_sound reads
  have filled : Text.trimStart front ≠ [] := by
    intro empty
    have := wall_length written
    rw [empty] at this
    cases this
  have accepted : ∀ zoned, Value.readTimestampTz (front ++ c :: rest) = .ok zoned ↔
      zoned.wall = stamp ∧ (c :: rest = ['Z'] ∧ zoned.offset = .zero ∨
        ∃ written : SignedOffset, c :: rest = written.text ∧
          zoned.offset.seconds = written.seconds ∧ SignsEarly (Text.trimStart front)) := by
    intro zoned
    rw [zoned_ok_iff, trim_behind filled solid]
    exact behind_read_iff written reads begins
  refine ⟨accepted, ?_, fun fault error => zoned_fault error⟩
  intro zoned zonedRead
  obtain ⟨-, offset⟩ := (accepted zoned).mp zonedRead
  constructor
  · intro documented
    rcases documented_orderly documented with ⟨universal, -⟩ | ⟨written, text, -, orderly⟩
    · exact .inl universal
    · exact .inr ⟨written, text, orderly⟩
  · rintro (universal | ⟨written, text, orderly⟩)
    · rcases offset with ⟨-, zero⟩ | ⟨other, text, -⟩
      · rw [universal, zero]
        exact .universal
      · exact absurd (universal.symm.trans text) (signed_not_universal other)
    · rcases offset with ⟨universal, -⟩ | ⟨other, text', seconds, -⟩
      · exact absurd (universal.symm.trans text) (signed_not_universal written)
      · cases written_unique (text'.symm.trans text)
        rw [text]
        exact orderly_documented seconds orderly

/-- Five hours and a half are read behind a timestamp, and are documented. -/
theorem half_hour_read :
    ∃ zoned, Value.readTimestampTz ("2024-01-02 03:04:05".toList ++ "+05:30".toList) = .ok zoned ∧
      zoned.offset.seconds = 19800 ∧ Documented "+05:30".toList zoned.offset.seconds := by
  let written : SignedOffset := ⟨.plus, ['0', '5'], ['3', '0'], ['0', '5', ':', '3', '0'], by simp,
    List.all_eq_true.mp rfl, rfl, .inr rfl, rfl⟩
  have orderly : Orderly written := ⟨by decide, .inr ⟨by simp [written], rfl⟩⟩
  have read := offsets_read "2024-01-02 03:04:05".toList "+05:30".toList _ rfl
    ⟨'+', rfl, .inr rfl⟩ (by simp; decide)
  exact ⟨_, rfl, rfl, (read.2.1 _ rfl).mpr (.inr ⟨written, rfl, orderly⟩)⟩

/-- Ninety-nine minutes are accepted, but no documented offset has as many. -/
theorem long_minutes_accepted :
    (∃ zoned, Value.readTimestampTz ("2024-01-02 03:04:05".toList ++ "+01:99".toList) = .ok zoned ∧
      zoned.offset.seconds = 9540) ∧ ∀ seconds, ¬ Documented "+01:99".toList seconds := by
  constructor
  · exact ⟨_, rfl, rfl⟩
  · intro seconds documented
    let written : SignedOffset := ⟨.plus, ['0', '1'], ['9', '9'], ['0', '1', ':', '9', '9'],
      by simp, List.all_eq_true.mp rfl, rfl, .inr rfl, rfl⟩
    rcases documented_orderly documented with ⟨universal, -⟩ | ⟨other, text, -, orderly⟩
    · cases universal
    · have same : written = other := written_unique text
      cases same
      exact absurd orderly.minute_le (by decide)

end SqlWire.OffsetReading
