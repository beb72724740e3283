import Mathlib.Data.List.Basic
import Mathlib.Data.List.TakeDrop
import Mathlib.Tactic.Linarith
import SqlWire.Proofs.CalendarGrammar
import SqlWire.Value.Decode

/-! The offsets that are read behind a timestamp, and where a text is split between the two. The
sign of the offset is looked for from the eleventh character on, whatever stands before it; but
what is read in front of it is a timestamp, and no timestamp goes on with a sign or a `Z`. So a text
is split in one way at most, and a sign of the day that is taken for the offset's is refused. -/
namespace SqlWire.OffsetGrammar
open CalendarGrammar NumeralText Calendar Outcomes

/-! ## The grammar -/

/-- A sign, two digits of hours and none or two of minutes, with colons anywhere behind the sign. -/
structure SignedOffset where
  sign : Sign
  hours : Text
  minutes : Text
  /-- The digits as they are written, with the colons. -/
  body : Text
  signed : sign ≠ .absent
  numeric : AllDigits (hours ++ minutes)
  two : hours.length = 2
  none_or_two : minutes.length = 0 ∨ minutes.length = 2
  bare : body.filter (· != ':') = hours ++ minutes

namespace SignedOffset

def text (written : SignedOffset) : Text := written.sign.text ++ written.body

/-- Seconds east of universal time. -/
def seconds (written : SignedOffset) : Int :=
  written.sign.factor * (3600 * Numeral.value written.hours + 60 * Numeral.value written.minutes)

end SignedOffset

/-! ## Offsets -/

theorem digits_kept (numeric : AllDigits digits) : digits.filter (· != ':') = digits :=
  List.filter_eq_self.mpr fun c member => by
    simpa using digit_ne (numeric c member) (by decide : ':'.isDigit = false)

theorem of_minutes_iff : Offset.ofMinutes? m = some offset ↔ offset.minutes = m := by
  rw [Offset.ofMinutes?]
  constructor
  · intro found
    split at found
    · cases found
      rfl
    · cases found
  · rintro rfl
    exact dif_pos offset.bounds

/-- The minutes that two digits of hours, or two of hours and two of minutes, come to. -/
def digitMinutes? (digits : Text) : Option Nat :=
  if !digits.all Char.isDigit then none
  else if digits.length = 2 then some (Numeral.value digits * 60)
  else if digits.length = 4 then
    some (Numeral.value (digits.take 2) * 60 + Numeral.value (digits.drop 2))
  else none

theorem digit_minutes_iff : digitMinutes? digits = some m ↔
    ∃ hours minutes, digits = hours ++ minutes ∧ AllDigits (hours ++ minutes) ∧
      hours.length = 2 ∧ (minutes.length = 0 ∨ minutes.length = 2) ∧
      m = Numeral.value hours * 60 + Numeral.value minutes := by
  constructor
  · intro found
    unfold digitMinutes? at found
    split at found
    · cases found
    next numeric =>
      have numeric : AllDigits digits := List.all_eq_true.mp (by simpa using numeric)
      split at found
      next two =>
        cases found
        exact ⟨digits, [], by simp, by simpa, two, .inl rfl, rfl⟩
      · split at found
        next four =>
          cases found
          exact ⟨_, _, (List.take_append_drop 2 digits).symm, by simpa, by simp [four],
            .inr (by simp [four]), rfl⟩
        · cases found
  · rintro ⟨hours, minutes, rfl, numeric, two, none | pair, rfl⟩
    · cases List.eq_nil_of_length_eq_zero none
      rw [List.append_nil] at numeric ⊢
      simp only [digitMinutes?, List.all_eq_true.mpr numeric, two, Bool.not_true,
        Bool.false_eq_true, ↓reduceIte]
      rfl
    · have four : (hours ++ minutes).length = 4 := by rw [List.length_append, two, pair]
      have front : (hours ++ minutes).take 2 = hours := List.take_left' two
      have back : (hours ++ minutes).drop 2 = minutes := List.drop_left' two
      simp only [digitMinutes?, List.all_eq_true.mpr numeric, four, front, back, Bool.not_true,
        Bool.false_eq_true, Nat.reduceEqDiff, ↓reduceIte]

private theorem signed_read (signed : sign ≠ Sign.absent) (body : Text) :
    readOffset? (sign.text ++ body) = (digitMinutes? (body.filter (· != ':'))).bind
      fun m => Offset.ofMinutes? (sign.factor * m) := by
  cases sign with
  | absent => cases signed rfl
  | plus =>
    simp only [Sign.factor, one_mul]
    rfl
  | minus =>
    simp only [Sign.factor, neg_one_mul]
    rfl

private theorem read_signed (reads : readOffset? text = some offset) :
    ∃ (sign : Sign) (body : Text), sign ≠ .absent ∧ text = sign.text ++ body := by
  cases text with
  | nil => cases reads
  | cons c body =>
    rw [readOffset?] at reads
    split at reads
    next plus => exact ⟨.plus, body, by simp, by rw [plus]; rfl⟩
    · split at reads
      next minus => exact ⟨.minus, body, by simp, by rw [minus]; rfl⟩
      · cases reads

/-- The offsets read are those of a sign with the digits of hours and minutes behind it. -/
theorem offset_read_iff : readOffset? text = some offset ↔
    ∃ written : SignedOffset, text = written.text ∧ offset.seconds = written.seconds := by
  constructor
  · intro reads
    obtain ⟨sign, body, signed, rfl⟩ := read_signed reads
    rw [signed_read signed] at reads
    obtain ⟨m, found, same⟩ := Option.bind_eq_some_iff.mp reads
    obtain ⟨hours, minutes, bare, numeric, two, pair, rfl⟩ := digit_minutes_iff.mp found
    refine ⟨⟨sign, hours, minutes, body, signed, numeric, two, pair, bare⟩, rfl, ?_⟩
    rw [Offset.seconds, of_minutes_iff.mp same, SignedOffset.seconds]
    push_cast
    ring
  · rintro ⟨⟨sign, hours, minutes, body, signed, numeric, two, pair, bare⟩, rfl, same⟩
    have found := digit_minutes_iff.mpr ⟨hours, minutes, bare, numeric, two, pair, rfl⟩
    refine (signed_read signed body).trans (Option.bind_eq_some_iff.mpr ⟨_, found, ?_⟩)
    rw [of_minutes_iff]
    rw [Offset.seconds, SignedOffset.seconds] at same
    push_cast
    linarith

/-- A sign before an offset. -/
def isSign (c : Char) : Bool := c = '+' || c = '-'

theorem sign_iff : isSign c = true ↔ c = '+' ∨ c = '-' := by
  simp [isSign]

private theorem passes_eq (c : Char) : (c != '+' && c != '-') = !isSign c := by
  rw [isSign, Bool.not_or]
  rfl

theorem signed_text (written : SignedOffset) :
    ∃ s, isSign s = true ∧ written.text = s :: written.body := by
  obtain ⟨sign, hours, minutes, body, signed⟩ := written
  cases sign with
  | absent => cases signed rfl
  | plus => exact ⟨'+', rfl, rfl⟩
  | minus => exact ⟨'-', rfl, rfl⟩

private theorem written_chars (written : SignedOffset) :
    ∀ c ∈ written.text, isSign c = true ∨ c.isDigit = true ∨ c = ':' := by
  obtain ⟨s, sign, text⟩ := signed_text written
  rw [text]
  refine List.forall_mem_cons.mpr ⟨.inl sign, fun c member => .inr ?_⟩
  by_cases colon : c = ':'
  · exact .inr colon
  · have kept : c ∈ written.body.filter (· != ':') := List.mem_filter.mpr ⟨member, by simpa⟩
    rw [written.bare] at kept
    exact .inl (written.numeric c kept)

/-- No blank, no mark of a timestamp and no `Z` stands in an offset behind a sign. -/
theorem written_solid (written : SignedOffset) :
    ∀ c ∈ written.text, Text.isBlank c = false ∧ isMark c = false ∧ c ≠ 'Z' := by
  intro c member
  rcases written_chars written c member with sign | digit | rfl
  · rcases sign_iff.mp sign with rfl | rfl <;> decide
  · have mark := digit_not_mem digit [' ', 'T'] rfl
    exact ⟨digit_not_blank digit, by simpa [isMark] using mark, digit_ne digit (by decide)⟩
  · decide

/-! ## Splitting -/

/-- No sign stands behind the first ten characters, where that of an offset is looked for. -/
def SignsEarly (text : Text) : Prop := ∀ c ∈ text.drop 10, isSign c = false

/-- A text is parted at its first sign, or is one part if it has none. -/
theorem sign_parts {front back : Text} (clear : ∀ c ∈ front, isSign c = false)
    (begins : ∀ c ∈ back.head?, isSign c = true) :
    (front ++ back).span (fun c => c != '+' && c != '-') = (front, back) := by
  simp only [passes_eq]
  have passes : ∀ c ∈ front, (!isSign c) = true := fun c member => by rw [clear c member]; rfl
  have stops : back.takeWhile (!isSign ·) = [] ∧ back.dropWhile (!isSign ·) = back := by
    cases back with
    | nil => exact ⟨rfl, rfl⟩
    | cons c back => simp [begins c rfl]
  rw [List.span_eq_takeWhile_dropWhile, List.takeWhile_append_of_pos passes,
    List.dropWhile_append_of_pos passes, stops.1, stops.2, List.append_nil]

private theorem split_universal (wall : Text) :
    splitOffset (wall ++ ['Z']) = .ok (wall, some .zero) := by
  simp [splitOffset, Text.dropLast?]

/-- An offset is split off at the first sign behind ten characters. -/
theorem split_signed (long : 10 ≤ wall.length) (early : SignsEarly wall)
    (sign : isSign s = true) (last : (wall ++ s :: back).getLast? ≠ some 'Z') :
    splitOffset (wall ++ s :: back) = .ok (wall, readOffset? (s :: back)) := by
  have front : (wall ++ s :: back).take 10 = wall.take 10 := List.take_append_of_le_length long
  have behind : (wall ++ s :: back).drop 10 = wall.drop 10 ++ s :: back :=
    List.drop_append_of_le_length long
  have cut : (wall.drop 10 ++ s :: back).span (fun c => c != '+' && c != '-') =
      (wall.drop 10, s :: back) := sign_parts early (by simpa using sign)
  rw [splitOffset, Text.dropLast?, if_neg last]
  simp only [front, behind, cut, List.isEmpty_cons, Bool.false_eq_true, ↓reduceIte,
    List.take_append_drop]

private theorem split_sound (split : splitOffset text = .ok (wall, offset?)) :
    text = wall ++ ['Z'] ∧ offset? = some .zero ∨
    ∃ s back, text = wall ++ s :: back ∧ isSign s = true ∧ SignsEarly wall ∧
      offset? = readOffset? (s :: back) := by
  unfold splitOffset at split
  split at split
  next front found =>
    cases split
    exact .inl ⟨Text.dropLast?_iff.mp found, rfl⟩
  next found =>
    cases cut : Text.cutAt isSign (text.drop 10) with
    | none =>
      have whole : (text.drop 10 ++ []).span (fun c => c != '+' && c != '-') =
          (text.drop 10, []) := sign_parts (Text.cutAt_eq_none_iff.mp cut) (by simp)
      rw [List.append_nil] at whole
      simp only [whole, List.isEmpty_nil, ↓reduceIte] at split
      cases split
    | some parts =>
      obtain ⟨front, back⟩ := parts
      obtain ⟨s, same, sign, clear⟩ := Text.cutAt_eq_some_iff.mp cut
      have found : (text.drop 10).span (fun c => c != '+' && c != '-') = (front, s :: back) := by
        rw [same]
        exact sign_parts clear (by simpa using sign)
      have long : 10 < text.length := by
        by_contra short
        rw [List.drop_eq_nil_of_le (by omega)] at same
        simp at same
      simp only [found, List.isEmpty_cons, Bool.false_eq_true, ↓reduceIte] at split
      cases split
      have ten : (text.take 10).length = 10 := by rw [List.length_take]; omega
      refine .inr ⟨s, back, ?_, sign, ?_, rfl⟩
      · rw [List.append_assoc, ← same, List.take_append_drop]
      · rwa [SignsEarly, List.drop_left' ten]

/-! ## Timestamps before offsets -/

private theorem field_length (field : Field text n) : 1 ≤ text.length := by
  cases field with
  | digits blank some =>
    have := List.length_pos_iff.mpr some
    rw [List.length_append]
    omega

private theorem year_length (year : YearField text n) : 1 ≤ text.length := by
  cases year with
  | digits blank sign some =>
    have := List.length_pos_iff.mpr some
    rw [List.length_append, List.length_append]
    omega

/-- What may stand behind the mark of a timestamp. -/
def ClockChar (c : Char) : Prop :=
  Text.isBlank c = true ∨ c.isDigit = true ∨ c = ':' ∨ c = '.'

private theorem stamp_length (written : StampText text fields) : 10 ≤ text.length := by
  obtain @⟨_, _, _, _, ⟨year, month, day⟩, _, _, ⟨hour, minute, second⟩, _⟩ := written
  have := year_length year
  have := field_length month
  have := field_length day
  have := field_length hour
  have := field_length minute
  have := field_length second
  simp only [List.length_append, List.length_cons]
  omega

/-- A timestamp is cut at its mark, and no sign stands behind that. -/
theorem stamp_halves (written : StampText text fields) :
    ∃ front back, Text.cutAt isMark text = some (front, back) ∧ ∀ c ∈ back, ClockChar c := by
  obtain @⟨front, c, back, _, day, solid, mark, clock, fraction⟩ := written
  have unmarked := day_unmarked day solid
  refine ⟨front, _, Text.cutAt_eq_some_iff.mpr ⟨c, rfl, mark_iff.mpr mark, unmarked⟩, ?_⟩
  intro d member
  rcases List.mem_append.mp member with hands | point
  · rcases clock_text_chars clock d hands with blank | digit | colon
    · exact .inl blank
    · exact .inr (.inl digit)
    · exact .inr (.inr (.inl colon))
  · rcases point_chars fraction d point with digit | point
    · exact .inr (.inl digit)
    · exact .inr (.inr (.inr point))

theorem wall_length (written : StampText (Text.trimEnd wall) fields) : 10 ≤ wall.length := by
  obtain ⟨gap, -, parts⟩ := Text.trimEnd_parts wall
  have := stamp_length written
  rw [parts, List.length_append]
  omega

/-- Blanks behind a timestamp change nothing of this. -/
theorem wall_halves (written : StampText (Text.trimEnd wall) fields) :
    ∃ front back, Text.cutAt isMark wall = some (front, back) ∧ ∀ c ∈ back, ClockChar c := by
  obtain ⟨gap, blank, parts⟩ := Text.trimEnd_parts wall
  obtain ⟨front, back, cut, clock⟩ := stamp_halves written
  obtain ⟨c, same, mark, clear⟩ := Text.cutAt_eq_some_iff.mp cut
  refine ⟨front, back ++ gap, Text.cutAt_eq_some_iff.mpr ⟨c, ?_, mark, clear⟩, ?_⟩
  · rw [parts, same, List.append_assoc, List.cons_append]
  · intro d member
    rcases List.mem_append.mp member with member | member
    · exact clock d member
    · exact .inl (blank d member)

/-- A timestamp goes on with characters of its clock only. -/
theorem extended_by_clock (written : StampText (Text.trimEnd wall) fields)
    (longer : StampText (Text.trimEnd (wall ++ c :: more)) others) : ClockChar c := by
  obtain ⟨front, back, cut, -⟩ := wall_halves written
  obtain ⟨front', back', cut', clock⟩ := wall_halves longer
  obtain ⟨d, same, mark, clear⟩ := Text.cutAt_eq_some_iff.mp cut
  have extended : Text.cutAt isMark (wall ++ c :: more) = some (front, back ++ c :: more) :=
    Text.cutAt_eq_some_iff.mpr ⟨d, by rw [same, List.append_assoc, List.cons_append], mark, clear⟩
  rw [extended] at cut'
  cases cut'
  exact clock c (by simp)

private theorem sign_not_clock (sign : isSign c = true) : ¬ ClockChar c := by
  rcases sign_iff.mp sign with rfl | rfl <;> simp [ClockChar] <;> decide

/-- The signs of a timestamp are those of its day: the mark stands behind them. -/
theorem mark_behind_sign (written : StampText (Text.trimEnd (before ++ s :: after)) fields)
    (sign : isSign s = true) : ∃ c ∈ after, isMark c = true := by
  obtain ⟨front, back, cut, clock⟩ := wall_halves written
  obtain ⟨c, same, mark, -⟩ := Text.cutAt_eq_some_iff.mp cut
  have apart : s ∉ c :: back := by
    intro member
    rcases List.mem_cons.mp member with rfl | member
    · rcases sign_iff.mp sign with rfl | rfl <;> cases mark
    · exact sign_not_clock sign (clock s member)
  rcases List.append_eq_append_iff.mp same with ⟨middle, rfl, rest⟩ | ⟨middle, rfl, rest⟩
  · cases middle with
    | nil =>
      cases rest
      exact absurd List.mem_cons_self apart
    | cons d middle =>
      cases rest
      exact ⟨c, by simp, mark⟩
  · exact absurd (by simp [rest]) apart

/-! ## Zoned timestamps -/

theorem of_wall_iff : ZonedTimestamp.ofWall? stamp offset = some zoned ↔
    zoned.wall = stamp ∧ zoned.offset = offset := by
  rw [ZonedTimestamp.ofWall?]
  constructor
  · intro found
    split at found
    · cases found
      exact ⟨rfl, rfl⟩
    · cases found
  · rintro ⟨rfl, rfl⟩
    exact dif_pos zoned.in_calendar

theorem zoned_read_iff : readZoned text = .ok zoned ↔
    ∃ wall, splitOffset text = .ok (wall, some zoned.offset) ∧
      readStamp (Text.trimEnd wall) = .ok zoned.wall := by
  constructor
  · intro reads
    obtain ⟨⟨wall, offset?⟩, split, reads⟩ := bind_ok reads
    rw [map_error_ok] at split
    cases offset? with
    | none =>
      obtain ⟨_, ⟨⟩, -⟩ := bind_ok reads
    | some offset =>
      obtain ⟨_, ⟨⟩, reads⟩ := bind_ok reads
      obtain ⟨stamp, stampRead, reads⟩ := bind_ok reads
      rw [map_error_ok] at stampRead
      split at reads
      next built =>
        cases reads
        obtain ⟨rfl, rfl⟩ := of_wall_iff.mp built
        exact ⟨wall, split, stampRead⟩
      · cases reads
  · rintro ⟨wall, split, reads⟩
    have parts := (map_error_ok (f := (⟨text, ·⟩ : Fault → Refusal))).mpr split
    have stamp := (map_error_ok (f := (⟨Text.trimEnd wall, ·⟩ : Fault → Refusal))).mpr reads
    have built := of_wall_iff.mpr ⟨rfl (a := zoned.wall), rfl (a := zoned.offset)⟩
    simp only [readZoned, parts, stamp, built, bind, Except.bind]

/-- A text has one timestamp in front of a character that continues none. -/
theorem wall_unique (one : StampText (Text.trimEnd wall) fields)
    (other : StampText (Text.trimEnd front) others) (start : ¬ ClockChar c) (begin : ¬ ClockChar d)
    (same : wall ++ c :: rest = front ++ d :: back) : front = wall ∧ d :: back = c :: rest := by
  -- Where one of the two were longer, its clock would go on with the character behind the other.
  rcases List.append_eq_append_iff.mp same with ⟨middle, rfl, parts⟩ | ⟨middle, rfl, parts⟩
  · cases middle with
    | nil => exact ⟨List.append_nil _, parts.symm⟩
    | cons e middle =>
      cases parts
      exact absurd (extended_by_clock one other) start
  · cases middle with
    | nil => exact ⟨(List.append_nil _).symm, parts⟩
    | cons e middle =>
      cases parts
      exact absurd (extended_by_clock other one) begin

private theorem universal_not_clock : ¬ ClockChar 'Z' := by
  simp [ClockChar]
  decide

/-- What is read of a timestamp with an offset behind it, both as they are written. -/
theorem behind_read_iff (written : StampText (Text.trimEnd wall) fields)
    (reads : readStamp (Text.trimEnd wall) = .ok stamp) (start : c = 'Z' ∨ isSign c = true) :
    readZoned (wall ++ c :: rest) = .ok zoned ↔ zoned.wall = stamp ∧
      (c :: rest = ['Z'] ∧ zoned.offset = .zero ∨
        ∃ offset : SignedOffset, c :: rest = offset.text ∧ zoned.offset.seconds = offset.seconds ∧
          SignsEarly wall) := by
  have apart : ¬ ClockChar c := by
    rcases start with rfl | sign
    · exact universal_not_clock
    · exact sign_not_clock sign
  constructor
  · intro zonedRead
    obtain ⟨front, split, frontRead⟩ := zoned_read_iff.mp zonedRead
    obtain ⟨others, other, -⟩ := stamp_sound frontRead
    rcases split_sound split with ⟨same, zero⟩ | ⟨s, back, same, sign, early, offset⟩
    · obtain ⟨rfl, parts⟩ := wall_unique written other apart universal_not_clock same
      rw [reads] at frontRead
      cases frontRead
      exact ⟨rfl, .inl ⟨parts.symm, Option.some.inj zero⟩⟩
    · obtain ⟨rfl, parts⟩ := wall_unique written other apart (sign_not_clock sign) same
      rw [reads] at frontRead
      cases frontRead
      obtain ⟨behind, text, seconds⟩ := offset_read_iff.mp offset.symm
      exact ⟨rfl, .inr ⟨behind, parts.symm.trans text, seconds, early⟩⟩
  · rintro ⟨rfl, ⟨text, zero⟩ | ⟨offset, text, seconds, early⟩⟩
    · rw [text]
      exact zoned_read_iff.mpr ⟨wall, by rw [split_universal, zero], reads⟩
    · have offsetRead := offset_read_iff.mpr ⟨offset, text, seconds⟩
      have solid := written_solid offset
      have long := wall_length written
      obtain ⟨s, sign, same⟩ := signed_text offset
      rw [text, same] at offsetRead ⊢
      rw [same] at solid
      have last : (wall ++ s :: offset.body).getLast? ≠ some 'Z' := by
        intro last
        rw [List.getLast?_append_cons] at last
        exact (solid 'Z' (List.mem_of_mem_getLast? last)).2.2 rfl
      have split := split_signed long early sign last
      rw [offsetRead] at split
      exact zoned_read_iff.mpr ⟨wall, split, reads⟩

/-- A later sign of the day is taken for that of the offset, which is refused then. -/
theorem late_sign_refused (written : StampText (Text.trimEnd wall) fields)
    (late : ¬ SignsEarly wall) (last : (wall ++ offset).getLast? ≠ some 'Z') :
    readZoned (wall ++ offset) = .error ⟨wall ++ offset, .invalidOffset⟩ := by
  have long := wall_length written
  have ten : (wall.take 10).length = 10 := by
    rw [List.length_take]
    omega
  cases cut : Text.cutAt isSign (wall.drop 10) with
  | none => exact absurd (Text.cutAt_eq_none_iff.mp cut) late
  | some parts =>
    obtain ⟨front, back⟩ := parts
    obtain ⟨s, same, sign, clear⟩ := Text.cutAt_eq_some_iff.mp cut
    have whole : wall = (wall.take 10 ++ front) ++ s :: back := by
      rw [List.append_assoc, ← same, List.take_append_drop]
    have early : SignsEarly (wall.take 10 ++ front) := by
      rwa [SignsEarly, List.drop_left' ten]
    have text : wall ++ offset = (wall.take 10 ++ front) ++ s :: (back ++ offset) := by
      rw [← List.cons_append, ← List.append_assoc, ← whole]
    have split := split_signed (by rw [List.length_append]; omega) early sign (text ▸ last)
    have none : readOffset? (s :: (back ++ offset)) = none := by
      rw [whole] at written
      obtain ⟨c, member, mark⟩ := mark_behind_sign written sign
      cases reads : readOffset? (s :: (back ++ offset)) with
      | none => rfl
      | some found =>
        obtain ⟨other, same, -⟩ := offset_read_iff.mp reads
        have unmarked := (written_solid other c (by simp [← same, member])).2.1
        rw [mark] at unmarked
        cases unmarked
    rw [none, ← text] at split
    have parts := (map_error_ok (f := (⟨wall ++ offset, ·⟩ : Fault → Refusal))).mpr split
    simp only [readZoned, parts, bind, Except.bind]

/-! ## Texts -/

theorem zoned_ok_iff : Value.readTimestampTz text = .ok zoned ↔
    Calendar.readZoned (Text.trim text) = .ok zoned := by
  rw [Value.readTimestampTz, map_error_ok]

theorem zoned_fault (error : Value.readTimestampTz text = .error fault) :
    fault.target = Kind.timestampTz.sqlName := by
  rw [Value.readTimestampTz] at error
  cases reads : Calendar.readZoned (Text.trim text) with
  | ok zoned =>
    rw [reads] at error
    cases error
  | error refusal =>
    rw [reads] at error
    cases error
    rfl

theorem trim_behind (filled : Text.trimStart front ≠ [])
    (solid : ∀ c ∈ (d :: rest).getLast?, Text.isBlank c = false) :
    Text.trim (front ++ d :: rest) = Text.trimStart front ++ d :: rest := by
  have start : Text.trimStart (front ++ d :: rest) = Text.trimStart front ++ d :: rest := by
    rw [Text.trimStart, List.dropWhile_append, ← Text.trimStart,
      if_neg (by simpa using filled)]
  rw [Text.trim, start]
  exact Text.trimEnd_eq_self (by rwa [List.getLast?_append_cons])

end SqlWire.OffsetGrammar
