import Mathlib.Algebra.Order.Ring.Int
import SqlWire.Calendar.Zone

/-! Days are numbered without a gap: the number of a day counts the days of the years and months
before it, and the days next to it have the numbers next to its own. Moving a timestamp by minutes
therefore moves its seconds by as many, and a universal time is its wall time less the offset. -/
namespace SqlWire.Instants

/-! ## Day numbers -/

/-- The days of a year before one of its months; month 13 is the end of the year. -/
def daysBefore (year : Int) : Nat → Nat
  | 0 => 0
  | month + 1 => daysBefore year month + daysInMonth year month

/-- The days before a year, counted from the beginning of year 1. A leap day comes every fourth
year but three times in four hundred years. -/
def yearStart (year : Int) : Int :=
  365 * (year - 1) + (year - 1) / 4 - (year - 1) / 100 + (year - 1) / 400

/-- The number of a day; the first day of year 1 has number one. -/
def dayNumber (date : Date) : Int :=
  yearStart date.year + daysBefore date.year date.month + date.day

/-- The seconds of a timestamp since the beginning of the day before day one. -/
def seconds (stamp : Timestamp) : Int :=
  dayNumber stamp.date * 86400 + stamp.time.hour * 3600 + stamp.time.minute * 60 +
    stamp.time.second

private theorem year_days (year : Int) :
    daysBefore year 13 = if isLeapYear year then 366 else 365 := by
  cases leap : isLeapYear year <;> simp [daysBefore, daysInMonth, leap]

/-- Each year begins where the year before it ends. -/
theorem year_follows (year : Int) : yearStart (year + 1) = yearStart year + daysBefore year 13 := by
  rw [year_days, yearStart, yearStart]
  split
  next leap =>
    simp only [isLeapYear, Bool.and_eq_true, Bool.or_eq_true, decide_eq_true_eq,
      bne_iff_ne] at leap
    omega
  next plain =>
    simp only [isLeapYear, Bool.and_eq_true, Bool.or_eq_true, decide_eq_true_eq,
      bne_iff_ne] at plain
    omega

private theorem of_fields (found : Date.ofFields? y m d = some date) :
    dayNumber date = yearStart y + daysBefore y m + d := by
  rw [Date.ofFields?] at found
  split at found
  · cases found
    rfl
  · cases found

private theorem next_day (found : date.next? = some later) :
    dayNumber later = dayNumber date + 1 := by
  have days := date.day_bounds
  have months := date.month_bounds
  unfold Date.next? at found
  split at found
  · rw [of_fields found, dayNumber]
    omega
  next last =>
    have whole : date.day = daysInMonth date.year date.month := by omega
    have ends : daysBefore date.year (date.month + 1) =
        daysBefore date.year date.month + date.day := by
      rw [daysBefore, whole]
    split at found
    · rw [of_fields found, ends, dayNumber]
      omega
    next december =>
      have twelve : date.month = 12 := by omega
      have first : daysBefore (date.year + 1) 1 = 0 := rfl
      have whole : daysBefore date.year 13 = daysBefore date.year 12 + date.day := by
        rw [← twelve, ← ends, twelve]
      rw [of_fields found, year_follows, first, dayNumber, twelve, whole]
      omega

private theorem previous_day (found : date.previous? = some earlier) :
    dayNumber earlier = dayNumber date - 1 := by
  have days := date.day_bounds
  have months := date.month_bounds
  unfold Date.previous? at found
  split at found
  · rw [of_fields found, dayNumber]
    omega
  next first =>
    have one : date.day = 1 := by omega
    split at found
    next later =>
      obtain ⟨month, same⟩ : ∃ month, date.month = month + 1 := ⟨date.month - 1, by omega⟩
      rw [of_fields found, dayNumber, same, one, daysBefore, Nat.add_sub_cancel]
      omega
    next january =>
      have start : date.month = 1 := by omega
      have follows := year_follows (date.year - 1)
      have december : daysBefore (date.year - 1) 13 = daysBefore (date.year - 1) 12 + 31 := rfl
      have zero : daysBefore date.year 1 = 0 := rfl
      rw [Int.sub_add_cancel] at follows
      rw [of_fields found, dayNumber, start, one, follows, december, zero]
      omega

private theorem days_before_mono (year : Int) : Monotone (daysBefore year) :=
  monotone_nat_of_le_succ fun _ => Nat.le_add_right _ _

private theorem year_start_mono (order : year ≤ later) : yearStart year ≤ yearStart later := by
  rw [yearStart, yearStart]
  omega

/-- The days of a month lie between its beginning and the next month's. -/
theorem within_month (date : Date) :
    daysBefore date.year date.month < dayNumber date - yearStart date.year ∧
      dayNumber date - yearStart date.year ≤ daysBefore date.year (date.month + 1) := by
  have days := date.day_bounds
  rw [dayNumber, daysBefore]
  omega

private theorem within_year (date : Date) :
    yearStart date.year < dayNumber date ∧ dayNumber date ≤ yearStart (date.year + 1) := by
  have within := within_month date
  have ends : daysBefore date.year (date.month + 1) ≤ daysBefore date.year 13 :=
    days_before_mono date.year (Nat.succ_le_succ date.month_bounds.2)
  rw [year_follows]
  omega

/-- Different days have different numbers. -/
theorem day_number_injective : Function.Injective dayNumber := by
  intro one other same
  -- Years do not overlap, and neither do the months of one.
  have year : one.year = other.year := by
    have first := within_year one
    have second := within_year other
    rcases Int.lt_trichotomy one.year other.year with before | same | behind
    · have := year_start_mono (show one.year + 1 ≤ other.year by omega)
      omega
    · exact same
    · have := year_start_mono (show other.year + 1 ≤ one.year by omega)
      omega
  have month : one.month = other.month := by
    have first := within_month one
    have second := within_month other
    rw [year] at first
    rcases Nat.lt_trichotomy one.month other.month with before | same | behind
    · have := days_before_mono other.year (show one.month + 1 ≤ other.month by omega)
      omega
    · exact same
    · have := days_before_mono other.year (show other.month + 1 ≤ one.month by omega)
      omega
  have day : one.day = other.day := by
    rw [dayNumber, dayNumber, year, month] at same
    omega
  cases one
  cases other
  cases year
  cases month
  cases day
  rfl

/-- A timestamp is determined by its seconds and nanoseconds. -/
theorem seconds_unique {one other : Timestamp} (same : seconds one = seconds other)
    (nanosecond : one.time.nanosecond = other.time.nanosecond) : one = other := by
  obtain ⟨date, hour, minute, second, n, hours, minutes, seconds⟩ := one
  obtain ⟨date', hour', minute', second', n', hours', minutes', seconds'⟩ := other
  simp only [Instants.seconds] at same
  obtain rfl : date = date' := day_number_injective (by omega)
  obtain rfl : hour = hour' := by omega
  obtain rfl : minute = minute' := by omega
  obtain rfl : second = second' := by omega
  cases nanosecond
  rfl

/-- The day at most one day away. -/
theorem day_moved {date : Date} {days : Int} (near : -1 ≤ days ∧ days ≤ 1)
    (found : (if days < 0 then date.previous? else if 0 < days then date.next? else some date) =
      some other) : dayNumber other = dayNumber date + days := by
  split at found
  · rw [previous_day found]
    omega
  · split at found
    · rw [next_day found]
      omega
    · cases found
      omega

/-- A timestamp moved by less than a day of minutes has its seconds moved by as many minutes. -/
theorem shift_seconds (small : -1440 < minutes ∧ minutes < 1440)
    (moved : stamp.shift? minutes = some other) :
    seconds other = seconds stamp + minutes * 60 ∧
      other.time.nanosecond = stamp.time.nanosecond := by
  have hours := stamp.time.hour_lt
  have clock := stamp.time.minute_lt
  obtain ⟨date, found, rfl⟩ := Option.map_eq_some_iff.mp moved
  have day : dayNumber date = dayNumber stamp.date +
      (stamp.time.hour * 60 + stamp.time.minute + minutes) / 1440 :=
    day_moved (by omega) found
  refine ⟨?_, rfl⟩
  simp only [seconds, day]
  omega

/-- A universal time is its wall time less the offset. -/
theorem universal_seconds (zoned : ZonedTimestamp) :
    seconds zoned.universal = seconds zoned.wall - zoned.offset.seconds ∧
      zoned.universal.time.nanosecond = zoned.wall.time.nanosecond := by
  have bounds := zoned.offset.bounds
  have moved : zoned.wall.shift? (-zoned.offset.minutes) = some zoned.universal :=
    (Option.some_get zoned.in_calendar).symm
  obtain ⟨same, nanosecond⟩ := shift_seconds (by omega) moved
  refine ⟨?_, nanosecond⟩
  rw [same, Offset.seconds]
  omega

end SqlWire.Instants
