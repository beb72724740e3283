import Mathlib.Data.List.TakeWhile
import SqlWire.Proofs.NumeralText
import SqlWire.Value.Decode

/-! The texts that are read as days, clocks and timestamps, and that the readers accept just these.
A field is a number with blanks before it or none. Each is read up to a character that is no digit,
so the separators alone say where a field ends, and a text has one reading at most. -/
namespace SqlWire.CalendarGrammar
open NumeralText Calendar Outcomes

/-! ## The grammar -/

/-- Blanks and nothing else. -/
def Blanks (gap : Text) : Prop := ∀ c ∈ gap, Text.isBlank c = true

/-- A field of one or two digits. -/
inductive Field : Text → Nat → Prop where
  | digits (blank : Blanks gap) (some : digits ≠ []) (numeric : AllDigits digits)
      (short : digits.length ≤ 2) : Field (gap ++ digits) (Numeral.value digits)

/-- A year of up to four digits, or of any number of digits behind a sign. -/
inductive YearField : Text → Int → Prop where
  | digits (blank : Blanks gap) (sign : Sign) (some : digits ≠ []) (numeric : AllDigits digits)
      (short : sign = .absent → digits.length ≤ 4) :
      YearField (gap ++ (sign.text ++ digits)) (sign.factor * Numeral.value digits)

/-- The text of a day. -/
inductive DayText : Text → Date → Prop where
  | fields {date : Date} (year : YearField front date.year) (month : Field middle date.month)
      (day : Field back date.day) : DayText (front ++ '-' :: (middle ++ '-' :: back)) date

/-- The text of a time of day without its fraction. A minute may have a second 60. -/
inductive ClockText : Text → Nat → Nat → Nat → Prop where
  | fields (hour : Field front h) (minute : Field middle m) (second : Field back s)
      (hour_lt : h < 24) (minute_lt : m < 60) (second_le : s ≤ 60) :
      ClockText (front ++ ':' :: (middle ++ ':' :: back)) h m s

/-- The digits of a fraction of a second. -/
structure Fraction (digits : Text) : Prop where
  some : digits ≠ []
  short : digits.length ≤ 9
  numeric : AllDigits digits

/-- What the text of a timestamp says. -/
structure Fields where
  date : Date
  hour : Nat
  minute : Nat
  second : Nat
  /-- The digits behind the point, when there is one. -/
  fraction : Option Text

namespace Fields

/-- The fraction as written, with its point. -/
def point (fields : Fields) : Text := (fields.fraction.map ('.' :: ·)).getD []

/-- The fraction in nanoseconds. -/
def nanosecond (fields : Fields) : Nat :=
  (fields.fraction.map fun digits =>
    Numeral.value digits * 10 ^ (9 - digits.length)).getD 0

end Fields

/-- The text of a timestamp. The mark between day and clock is the first space or `T` in it. -/
inductive StampText : Text → Fields → Prop where
  | parts {fields : Fields} (day : DayText front fields.date) (solid : ' ' ∉ front)
      (mark : c = ' ' ∨ c = 'T') (clock : ClockText back fields.hour fields.minute fields.second)
      (fraction : ∀ digits ∈ fields.fraction, Fraction digits) :
      StampText (front ++ c :: (back ++ fields.point)) fields

/-! ## Numbers -/

/-- The next character ends a number. -/
def NoDigitNext (rest : Text) : Prop := ∀ c ∈ rest.head?, c.isDigit = false

private theorem no_digit_next (other : c.isDigit = false) (rest : Text) : NoDigitNext (c :: rest) :=
  fun d member => by cases member; exact other

private theorem no_digit_at_end : NoDigitNext [] := by simp [NoDigitNext]

private theorem take_digits (digits : AllDigits text) (ends : NoDigitNext rest) :
    (text ++ rest).takeWhile Char.isDigit = text := by
  rw [List.takeWhile_append_of_pos digits]
  cases rest with
  | nil => simp
  | cons c rest =>
    have stops : c.isDigit = false := ends c rfl
    simp [stops]

/-- Digits are read as their value up to a character that is no digit. -/
theorem number_reads (digits : AllDigits text) (some : text ≠ []) (ends : NoDigitNext rest)
    (width : Option Nat) (fits : ∀ most ∈ width, text.length ≤ most) :
    number width (text ++ rest) = .ok (Numeral.value text, rest) := by
  obtain ⟨c, others, rfl⟩ := List.exists_cons_of_ne_nil some
  have first : c.isDigit = true := digits c List.mem_cons_self
  have taken := take_digits digits ends
  have left : (c :: others ++ rest).drop (c :: others).length = rest := List.drop_left
  rw [List.cons_append] at taken left ⊢
  cases width with
  | none =>
    simp only [number, taken, left, first, Bool.not_true, Bool.false_eq_true, ↓reduceIte]
  | some most =>
    have whole : (c :: others).take most = c :: others := List.take_of_length_le (fits most rfl)
    simp only [number, taken, whole, left, first, Bool.not_true, Bool.false_eq_true, ↓reduceIte]

/-- What is read as a number is a run of digits. -/
theorem number_sound (room : ∀ most ∈ width, 0 < most)
    (reads : number width text = .ok (n, rest)) :
    ∃ digits, text = digits ++ rest ∧ digits ≠ [] ∧ AllDigits digits ∧
      (∀ most ∈ width, digits.length ≤ most) ∧ n = Numeral.value digits := by
  cases text with
  | nil => cases reads
  | cons c text =>
    have run : AllDigits ((c :: text).takeWhile Char.isDigit) :=
      fun d member => List.mem_takeWhile_imp member
    have front := List.takeWhile_prefix Char.isDigit (l := c :: text)
    unfold number at reads
    dsimp only at reads
    split at reads
    · cases reads
    next digit =>
      have first : (c :: text).takeWhile Char.isDigit = c :: text.takeWhile Char.isDigit :=
        List.takeWhile_cons_of_pos (by simpa using digit)
      cases reads
      cases width with
      | none =>
        exact ⟨_, (List.prefix_iff_eq_append.mp front).symm, by simp [first], run, by simp, rfl⟩
      | some most =>
        have pos := room most rfl
        have short := (List.take_prefix most _).trans front
        refine ⟨_, (List.prefix_iff_eq_append.mp short).symm, ?_,
          fun d member => run d (List.mem_of_mem_take member), ?_, rfl⟩
        · rw [first, Ne, List.take_eq_nil_iff]
          simp only [reduceCtorEq, or_false]
          omega
        · rintro other ⟨⟩
          exact List.length_take_le _ _

/-- The first of some digits is no blank. -/
theorem digits_start (digits : AllDigits text) (some : text ≠ []) :
    Text.trimStart (text ++ rest) = text ++ rest := by
  obtain ⟨c, others, rfl⟩ := List.exists_cons_of_ne_nil some
  exact Text.trimStart_eq_self fun d member => by
    cases member
    exact digit_not_blank (digits c List.mem_cons_self)

theorem no_blanks : Blanks [] := by simp [Blanks]

/-- Digits alone are a field. -/
theorem digits_field (some : digits ≠ []) (numeric : AllDigits digits) (short : digits.length ≤ 2) :
    Field digits (Numeral.value digits) :=
  Field.digits no_blanks some numeric short

/-- A field is read up to a character that is no digit. -/
theorem field_reads (written : Field text n) (above : low ≤ n) (below : n ≤ high)
    (ends : NoDigitNext rest) : field low high (text ++ rest) = .ok (n, rest) := by
  cases written with
  | @digits gap digits blank some numeric short =>
    have reads := number_reads numeric some ends (Option.some 2) (by simpa using short)
    rw [field, List.append_assoc, Text.trimStart_blanks blank, digits_start numeric some, reads]
    exact if_pos ⟨above, below⟩

private theorem field_sound (reads : field low high text = .ok (n, rest)) :
    ∃ used, text = used ++ rest ∧ Field used n ∧ low ≤ n ∧ n ≤ high := by
  obtain ⟨gap, blank, parts, -⟩ := Text.trimStart_parts text
  obtain ⟨⟨m, after⟩, number, reads⟩ := bind_ok reads
  dsimp only at reads
  split at reads
  next range =>
    cases reads
    obtain ⟨digits, found, some, numeric, short, rfl⟩ := number_sound (by simp) number
    refine ⟨gap ++ digits, ?_, .digits blank some numeric (short 2 rfl), range⟩
    rw [List.append_assoc, ← found]
    exact parts
  · cases reads

private theorem year_in_range (above : Date.firstYear ≤ n) (below : n ≤ Date.lastYear) :
    -2147483648 ≤ n ∧ n < 2147483648 := by
  simp only [Date.firstYear, Date.lastYear] at above below
  omega

/-- A year of the calendar is read up to a character that is no digit. -/
theorem year_reads (written : YearField text n) (above : Date.firstYear ≤ n)
    (below : n ≤ Date.lastYear) (ends : NoDigitNext rest) :
    year (text ++ rest) = .ok (n, rest) := by
  have range := year_in_range above below
  cases written with
  | @digits gap digits blank sign some numeric short =>
    rw [year, List.append_assoc, Text.trimStart_blanks blank, List.append_assoc]
    cases sign with
    | absent =>
      have plain := number_reads numeric some ends (Option.some 4) (by simpa using short)
      obtain ⟨c, others, rfl⟩ := List.exists_cons_of_ne_nil some
      have first : c.isDigit = true := numeric c List.mem_cons_self
      have plus : c ≠ '+' := digit_ne first (by decide)
      have minus : c ≠ '-' := digit_ne first (by decide)
      simp only [Sign.text, List.nil_append, digits_start numeric some]
      rw [List.cons_append] at plain ⊢
      simp only [Sign.factor, one_mul] at range ⊢
      split <;> simp_all [bind, Except.bind, Except.map]
    | plus =>
      have signed := number_reads numeric some ends none (by simp)
      have start : Text.trimStart ('+' :: (digits ++ rest)) = '+' :: (digits ++ rest) :=
        Text.trimStart_eq_self (by simp; decide)
      simp only [Sign.factor, one_mul] at range ⊢
      simp only [Sign.text, List.cons_append, List.nil_append, start, signed, Except.map, bind,
        Except.bind, range, and_self, ↓reduceIte]
    | minus =>
      have signed := number_reads numeric some ends none (by simp)
      have start : Text.trimStart ('-' :: (digits ++ rest)) = '-' :: (digits ++ rest) :=
        Text.trimStart_eq_self (by simp; decide)
      simp only [Sign.factor, neg_mul, one_mul] at range ⊢
      simp only [Sign.text, List.cons_append, List.nil_append, start, signed, Except.map, bind,
        Except.bind, range, and_self, ↓reduceIte]

private theorem year_sound (reads : year text = .ok (n, rest)) :
    ∃ used, text = used ++ rest ∧ YearField used n := by
  obtain ⟨gap, blank, parts, -⟩ := Text.trimStart_parts text
  obtain ⟨⟨m, after⟩, number, reads⟩ := bind_ok reads
  dsimp only at reads
  split at reads
  · cases reads
    split at number
    next behind start =>
      obtain ⟨⟨value, left⟩, run, same⟩ := map_ok number
      cases same
      obtain ⟨digits, rfl, some, numeric, -, rfl⟩ := number_sound (by simp) run
      refine ⟨gap ++ (Sign.minus.text ++ digits), by rw [parts, start]; simp [Sign.text], ?_⟩
      simpa [Sign.factor] using YearField.digits blank .minus some numeric (by simp)
    next behind start =>
      obtain ⟨⟨value, left⟩, run, same⟩ := map_ok number
      cases same
      obtain ⟨digits, rfl, some, numeric, -, rfl⟩ := number_sound (by simp) run
      refine ⟨gap ++ (Sign.plus.text ++ digits), by rw [parts, start]; simp [Sign.text], ?_⟩
      simpa [Sign.factor] using YearField.digits blank .plus some numeric (by simp)
    · obtain ⟨⟨value, left⟩, run, same⟩ := map_ok number
      cases same
      obtain ⟨digits, found, some, numeric, short, rfl⟩ := number_sound (by simp) run
      refine ⟨gap ++ (Sign.absent.text ++ digits), by rw [parts, found]; simp [Sign.text], ?_⟩
      simpa [Sign.factor] using
        YearField.digits blank .absent some numeric (fun _ => short 4 rfl)
  · cases reads

/-! ## Days and clocks -/

private theorem expect_reads (separator : Char) (rest : Text) :
    expect separator (separator :: rest) = .ok rest := by
  simp [expect]

private theorem expect_sound (reads : expect separator text = .ok rest) :
    text = separator :: rest := by
  cases text with
  | nil => cases reads
  | cons c text =>
    rw [expect] at reads
    split at reads
    next same =>
      cases reads
      rw [same]
    · cases reads

private theorem end_sound (reads : expectEnd text = .ok ()) : text = [] := by
  cases text with
  | nil => rfl
  | cons c text => cases reads

private theorem date_of_fields (date : Date) :
    Date.ofFields? date.year date.month date.day = some date := by
  simp [Date.ofFields?, date.year_bounds, date.month_bounds, date.day_bounds]

private theorem fields_of_date (found : Date.ofFields? y m d = some date) :
    date.year = y ∧ date.month = m ∧ date.day = d := by
  rw [Date.ofFields?] at found
  split at found
  · cases found
    exact ⟨rfl, rfl, rfl⟩
  · cases found

theorem day_fits (date : Date) : 1 ≤ date.day ∧ date.day ≤ 31 := by
  have least : 28 ≤ daysInMonth date.year date.month ∧ daysInMonth date.year date.month ≤ 31 :=
    daysInMonth_bounds date.month_bounds.1 date.month_bounds.2
  have := date.day_bounds
  omega

/-- The days read are those written. -/
theorem day_read_iff : readDay text = .ok date ↔ DayText text date := by
  constructor
  · intro reads
    obtain ⟨⟨year, behindYear⟩, first, reads⟩ := bind_ok reads
    obtain ⟨afterYear, dash, reads⟩ := bind_ok reads
    obtain ⟨⟨month, behindMonth⟩, second, reads⟩ := bind_ok reads
    obtain ⟨afterMonth, hyphen, reads⟩ := bind_ok reads
    obtain ⟨⟨day, behindDay⟩, third, reads⟩ := bind_ok reads
    obtain ⟨_, ends, reads⟩ := bind_ok reads
    split at reads
    next found =>
      cases reads
      obtain ⟨rfl, rfl, rfl⟩ := fields_of_date found
      obtain ⟨front, rfl, yearField⟩ := year_sound first
      cases expect_sound dash
      obtain ⟨middle, rfl, monthField, -⟩ := field_sound second
      cases expect_sound hyphen
      obtain ⟨back, rfl, dayField, -⟩ := field_sound third
      cases end_sound ends
      rw [List.append_nil]
      exact .fields yearField monthField dayField
    · cases reads
  · rintro (@⟨front, middle, back, _, year, month, day⟩)
    have months := date.month_bounds
    have days := day_fits date
    have dash : '-'.isDigit = false := by decide
    have third := field_reads day days.1 days.2 no_digit_at_end
    rw [List.append_nil] at third
    have second := field_reads month months.1 months.2 (no_digit_next dash back)
    have first := year_reads year date.year_bounds.1 date.year_bounds.2
      (no_digit_next dash (middle ++ '-' :: back))
    simp only [readDay, first, second, third, expect_reads, expectEnd, date_of_fields, bind,
      Except.bind]

/-- The clocks read are those written, second 60 as second 59. -/
theorem clock_read_iff : readClock text = .ok (hour, minute, second) ↔
    ∃ written, ClockText text hour minute written ∧ second = min written 59 := by
  constructor
  · intro reads
    obtain ⟨⟨h, behindHour⟩, first, reads⟩ := bind_ok reads
    obtain ⟨afterHour, colon, reads⟩ := bind_ok reads
    obtain ⟨⟨m, behindMinute⟩, between, reads⟩ := bind_ok reads
    obtain ⟨afterMinute, mark, reads⟩ := bind_ok reads
    obtain ⟨⟨s, behindSecond⟩, third, reads⟩ := bind_ok reads
    obtain ⟨_, ends, reads⟩ := bind_ok reads
    cases reads
    obtain ⟨front, rfl, hourField, -, hours⟩ := field_sound first
    cases expect_sound colon
    obtain ⟨middle, rfl, minuteField, -, minutes⟩ := field_sound between
    cases expect_sound mark
    obtain ⟨back, rfl, secondField, -, seconds⟩ := field_sound third
    cases end_sound ends
    rw [List.append_nil]
    exact ⟨s, .fields hourField minuteField secondField (by omega) (by omega) seconds, rfl⟩
  · rintro ⟨written, @⟨front, _, middle, _, back, _, hour, minute, second, hours, minutes, seconds⟩,
      rfl⟩
    have colon : ':'.isDigit = false := by decide
    have third := field_reads second (Nat.zero_le _) seconds no_digit_at_end
    rw [List.append_nil] at third
    have between := field_reads minute (Nat.zero_le _) (Nat.le_of_lt_succ minutes)
      (no_digit_next colon back)
    have first := field_reads hour (Nat.zero_le _) (Nat.le_of_lt_succ hours)
      (no_digit_next colon (middle ++ ':' :: back))
    simp only [readClock, first, between, third, expect_reads, expectEnd, bind, Except.bind]

/-! ## Timestamps -/

private theorem blank_before {p : Char → Prop} (blank : Blanks gap)
    (holds : ∀ c ∈ text, Text.isBlank c = true ∨ p c) :
    ∀ c ∈ gap ++ text, Text.isBlank c = true ∨ p c := by
  intro c member
  rcases List.mem_append.mp member with before | member
  · exact .inl (blank c before)
  · exact holds c member

private theorem field_chars (field : Field text n) :
    ∀ c ∈ text, Text.isBlank c = true ∨ c.isDigit = true := by
  cases field with
  | digits blank some numeric short =>
    exact blank_before blank fun c member => .inr (numeric c member)

private theorem year_chars (year : YearField text n) :
    ∀ c ∈ text, Text.isBlank c = true ∨ c.isDigit = true ∨ c = '-' ∨ c = '+' := by
  cases year with
  | digits blank sign some numeric short =>
    refine blank_before blank fun c member => .inr ?_
    rcases List.mem_append.mp member with signed | member
    · cases sign with
      | absent => cases signed
      | plus => exact .inr (.inr (List.mem_singleton.mp signed))
      | minus => exact .inr (.inl (List.mem_singleton.mp signed))
    · exact .inl (numeric c member)

private theorem day_text_chars (day : DayText text date) :
    ∀ c ∈ text, Text.isBlank c = true ∨ c.isDigit = true ∨ c = '-' ∨ c = '+' := by
  cases day with
  | fields year month day =>
    intro c member
    simp only [List.mem_append, List.mem_cons] at member
    rcases member with member | dash | member | dash | member
    · exact year_chars year c member
    · exact .inr (.inr (.inl dash))
    · exact (field_chars month c member).imp_right .inl
    · exact .inr (.inr (.inl dash))
    · exact (field_chars day c member).imp_right .inl

theorem clock_text_chars (clock : ClockText text h m s) :
    ∀ c ∈ text, Text.isBlank c = true ∨ c.isDigit = true ∨ c = ':' := by
  cases clock with
  | fields hour minute second =>
    intro c member
    simp only [List.mem_append, List.mem_cons] at member
    rcases member with member | colon | member | colon | member
    · exact (field_chars hour c member).imp_right .inl
    · exact .inr (.inr colon)
    · exact (field_chars minute c member).imp_right .inl
    · exact .inr (.inr colon)
    · exact (field_chars second c member).imp_right .inl

theorem point_chars {fields : Fields} (fraction : ∀ digits ∈ fields.fraction, Fraction digits) :
    ∀ c ∈ fields.point, c.isDigit = true ∨ c = '.' := by
  intro c member
  rw [Fields.point] at member
  cases found : fields.fraction with
  | none => simp [found] at member
  | some digits =>
    rw [found] at member
    rcases List.mem_cons.mp member with point | member
    · exact .inr point
    · exact .inl ((fraction digits found).numeric c member)

theorem nanoseconds_iff : nanoseconds? digits = some n ↔
    Fraction digits ∧ n = Numeral.value digits * 10 ^ (9 - digits.length) := by
  have allowed : Fraction digits ↔
      ¬ (digits.isEmpty || decide (9 < digits.length) || !digits.all Char.isDigit) = true := by
    simp only [Bool.or_eq_true, not_or, List.isEmpty_iff, decide_eq_true_eq, Nat.not_lt,
      Bool.not_eq_true', Bool.not_eq_false, List.all_eq_true]
    exact ⟨fun ⟨filled, short, numeric⟩ => ⟨⟨filled, short⟩, numeric⟩,
      fun ⟨⟨filled, short⟩, numeric⟩ => ⟨filled, short, numeric⟩⟩
  rw [nanoseconds?]
  split
  next refused => simp [allowed, refused]
  next fits =>
    rw [Option.some.injEq, eq_comm]
    exact ⟨fun same => ⟨allowed.mpr fits, same⟩, And.right⟩

private theorem time_of_fields (time : Time) :
    Time.ofFields? time.hour time.minute time.second time.nanosecond = some time :=
  dif_pos ⟨⟨time.hour_lt, time.minute_lt, time.second_lt⟩, time.nanosecond_lt, time.leap_second⟩

private theorem fields_of_time (found : Time.ofFields? h m s n = some time) :
    time.hour = h ∧ time.minute = m ∧ time.second = s ∧ time.nanosecond = n := by
  rw [Time.ofFields?] at found
  split at found
  · cases found
    exact ⟨rfl, rfl, rfl, rfl⟩
  · cases found

/-- The timestamp that a text is read as: what the text says, but second 60 is second 59. -/
structure Fields.ReadAs (fields : Fields) (stamp : Timestamp) : Prop where
  date : stamp.date = fields.date
  hour : stamp.time.hour = fields.hour
  minute : stamp.time.minute = fields.minute
  second : stamp.time.second = min fields.second 59
  nanosecond : stamp.time.nanosecond = fields.nanosecond

/-- The mark between day and clock. -/
def isMark (c : Char) : Bool := c = ' ' || c = 'T'

theorem mark_iff : isMark c = true ↔ c = ' ' ∨ c = 'T' := by
  simp [isMark]

/-- Nothing in a day is taken for the mark behind it, a space before one of its fields apart. -/
theorem day_unmarked (day : DayText text date) (solid : ' ' ∉ text) :
    ∀ c ∈ text, isMark c = false := by
  intro c member
  by_contra mark
  rcases mark_iff.mp (Bool.eq_true_of_not_eq_false mark) with rfl | rfl
  · exact solid member
  · rcases day_text_chars day _ member with blank | digit | dash | plus
    · cases blank
    · cases digit
    · cases dash
    · cases plus

private theorem clock_unpointed (clock : ClockText text h m s) :
    ∀ c ∈ text, decide (c = '.') = false := by
  intro c member
  apply decide_eq_false
  rintro rfl
  rcases clock_text_chars clock _ member with blank | digit | colon
  · cases blank
  · cases digit
  · cases colon

theorem halves_iff : Text.cutAt (fun c => decide (c = ' ') || decide (c = 'T')) text =
    some (front, back) ↔
    ∃ c, text = front ++ c :: back ∧ isMark c = true ∧ ∀ d ∈ front, isMark d = false :=
  Text.cutAt_eq_some_iff

/-- A timestamp is put together from the fields of its text. -/
theorem fields_read (fields : Fields) (day : DayText front fields.date) (solid : ' ' ∉ front)
    (mark : isMark c = true) (clock : ClockText back fields.hour fields.minute fields.second)
    (fraction : ∀ digits ∈ fields.fraction, Fraction digits)
    (found : Time.ofFields? fields.hour fields.minute (min fields.second 59) fields.nanosecond =
      some time) :
    ∃ said, StampText (front ++ c :: (back ++ fields.point)) said ∧
      said.ReadAs ⟨fields.date, time⟩ := by
  obtain ⟨hour, minute, second, nanosecond⟩ := fields_of_time found
  exact ⟨fields, .parts day solid (mark_iff.mp mark) clock fraction,
    rfl, hour, minute, second, nanosecond⟩

theorem stamp_sound (reads : readStamp text = .ok stamp) :
    ∃ fields, StampText text fields ∧ fields.ReadAs stamp := by
  unfold readStamp at reads
  split at reads
  next halves =>
    obtain ⟨⟨front, wall⟩, ⟨⟩, behind⟩ := bind_ok reads
    obtain ⟨c, rfl, mark, clear⟩ := halves_iff.mp halves
    have solid : ' ' ∉ front := fun member => by cases clear ' ' member
    obtain ⟨date, dayRead, wallRead⟩ := bind_ok behind
    have day := day_read_iff.mp dayRead
    cases pointed : Text.cutAt (fun c => decide (c = '.')) wall with
    | none =>
      simp only [pointed] at wallRead
      obtain ⟨⟨hour, minute, second⟩, clockRead, timed⟩ := bind_ok wallRead
      obtain ⟨written, clock, rfl⟩ := clock_read_iff.mp clockRead
      obtain ⟨nanosecond, ⟨⟩, built⟩ := bind_ok timed
      split at built
      next time found =>
        cases built
        have said := fields_read ⟨date, hour, minute, written, none⟩ day solid mark clock
          (by simp) found
        rwa [Fields.point, Option.map_none, Option.getD_none, List.append_nil] at said
      · cases built
    | some parts =>
      obtain ⟨back, digits⟩ := parts
      obtain ⟨point, rfl, same, -⟩ := Text.cutAt_eq_some_iff.mp pointed
      cases of_decide_eq_true same
      simp only [pointed] at wallRead
      obtain ⟨⟨hour, minute, second⟩, clockRead, timed⟩ := bind_ok wallRead
      obtain ⟨written, clock, rfl⟩ := clock_read_iff.mp clockRead
      cases nanos : nanoseconds? digits with
      | none =>
        simp only [nanos, Option.map_some] at timed
        obtain ⟨_, ⟨⟩, -⟩ := bind_ok timed
      | some n =>
        obtain ⟨fraction, rfl⟩ := nanoseconds_iff.mp nanos
        simp only [nanos, Option.map_some] at timed
        obtain ⟨nanosecond, ⟨⟩, built⟩ := bind_ok timed
        split at built
        next time found =>
          cases built
          exact fields_read ⟨date, hour, minute, written, some digits⟩ day solid mark clock
            (by rintro _ ⟨⟩; exact fraction) found
        · cases built
  · cases reads

theorem stamp_reads (written : StampText text fields) (same : fields.ReadAs stamp) :
    readStamp text = .ok stamp := by
  obtain @⟨front, c, back, _, day, solid, mark, clock, fraction⟩ := written
  have halves := halves_iff.mpr
    ⟨c, rfl (a := front ++ c :: (back ++ fields.point)), mark_iff.mpr mark, day_unmarked day solid⟩
  have date := day_read_iff.mpr day
  have hands := clock_read_iff.mpr ⟨_, clock, rfl⟩
  have time := time_of_fields stamp.time
  rw [same.hour, same.minute, same.second, same.nanosecond, Fields.nanosecond] at time
  unfold readStamp
  rw [Fields.point] at halves ⊢
  cases found : fields.fraction with
  | none =>
    have whole : Text.cutAt (fun c => decide (c = '.')) back = none :=
      Text.cutAt_eq_none (clock_unpointed clock)
    simp only [found, Option.map_none, Option.getD_none, List.append_nil] at halves time ⊢
    simp only [halves, whole, date, hands, time, Option.map_none, bind, Except.bind, ← same.date]
  | some digits =>
    have parts : Text.cutAt (fun c => decide (c = '.')) (back ++ '.' :: digits) =
        some (back, digits) :=
      Text.cutAt_append (clock_unpointed clock) (by decide)
    have nanos := nanoseconds_iff.mpr ⟨fraction digits found, rfl⟩
    simp only [found, Option.map_some, Option.getD_some] at halves time ⊢
    simp only [halves, parts, date, hands, nanos, time, Option.map_some, bind, Except.bind,
      ← same.date]

/-- The timestamps read are those written. -/
theorem stamp_read_iff : readStamp text = .ok stamp ↔
    ∃ fields, StampText text fields ∧ fields.ReadAs stamp :=
  ⟨stamp_sound, fun ⟨_, written, same⟩ => stamp_reads written same⟩

/-! ## What is written and read -/

/-- A fraction is less than a second. -/
theorem fraction_lt (fraction : Fraction digits) :
    Numeral.value digits * 10 ^ (9 - digits.length) < 10 ^ 9 := by
  have short := fraction.short
  calc Numeral.value digits * 10 ^ (9 - digits.length)
      < 10 ^ digits.length * 10 ^ (9 - digits.length) :=
        Nat.mul_lt_mul_of_pos_right (value_bound fraction.numeric) (Nat.pow_pos (by decide))
    _ = 10 ^ 9 := by
        rw [← Nat.pow_add]
        congr 1
        omega

theorem written_clock (written : StampText text fields) :
    fields.hour < 24 ∧ fields.minute < 60 ∧ fields.second ≤ 60 := by
  obtain @⟨_, _, _, _, _, _, _, clock, _⟩ := written
  cases clock with
  | fields hour minute second hours minutes seconds => exact ⟨hours, minutes, seconds⟩

theorem written_fraction (written : StampText text fields) :
    ∀ digits ∈ fields.fraction, Fraction digits := by
  obtain @⟨_, _, _, _, _, _, _, _, fraction⟩ := written
  exact fraction

theorem written_nanosecond (written : StampText text fields) : fields.nanosecond < 10 ^ 9 := by
  have fraction := written_fraction written
  rw [Fields.nanosecond]
  cases found : fields.fraction with
  | none => exact Nat.pow_pos (by decide)
  | some digits => exact fraction_lt (fraction digits found)

/-- Every written timestamp is read. -/
theorem written_read (written : StampText text fields) :
    ∃ stamp, readStamp text = .ok stamp ∧ fields.ReadAs stamp := by
  obtain ⟨hours, minutes, -⟩ := written_clock written
  have nanosecond := written_nanosecond written
  let time : Time := ⟨fields.hour, fields.minute, min fields.second 59, fields.nanosecond,
    hours, minutes, by omega, by omega, by omega⟩
  have same : fields.ReadAs ⟨fields.date, time⟩ := ⟨rfl, rfl, rfl, rfl, rfl⟩
  exact ⟨_, stamp_reads written same, same⟩

/-- Nothing is read as a leap second. -/
theorem stamp_ordinary (reads : readStamp text = .ok stamp) : stamp.time.IsOrdinary := by
  obtain ⟨fields, written, same⟩ := stamp_sound reads
  rw [Time.IsOrdinary, same.nanosecond]
  exact written_nanosecond written

theorem read_date_ok : Value.readDate text = .ok day ↔ readDay (Text.trim text) = .ok day := by
  rw [Value.readDate, Value.refuse, map_error_ok, map_error_ok]

theorem read_timestamp_ok : Value.readTimestamp text = .ok stamp ↔
    readStamp (Text.trim text) = .ok stamp := by
  rw [Value.readTimestamp, Value.refuse, map_error_ok, map_error_ok]

end SqlWire.CalendarGrammar
