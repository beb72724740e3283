import SqlWire.Number.Numeral

/-! Days of the Gregorian calendar, extended to both sides, and times of day
with nanoseconds. Only days and times that exist can be built. -/
namespace SqlWire

/-- Years with a twenty-ninth of February. -/
def isLeapYear (year : Int) : Bool :=
  year % 4 = 0 && (year % 100 != 0 || year % 400 = 0)

/-- The number of days of a month; no days for a number that is no month. -/
def daysInMonth (year : Int) : Nat → Nat
  | 1 | 3 | 5 | 7 | 8 | 10 | 12 => 31
  | 4 | 6 | 9 | 11 => 30
  | 2 => if isLeapYear year then 29 else 28
  | _ => 0

/-- A month always has between twenty-eight and thirty-one days. -/
theorem daysInMonth_bounds {year : Int} {month : Nat} (first : 1 ≤ month) (last : month ≤ 12) :
    28 ≤ daysInMonth year month ∧ daysInMonth year month ≤ 31 := by
  have : month = 1 ∨ month = 2 ∨ month = 3 ∨ month = 4 ∨ month = 5 ∨ month = 6 ∨ month = 7 ∨
      month = 8 ∨ month = 9 ∨ month = 10 ∨ month = 11 ∨ month = 12 := by omega
  rcases this with h | h | h | h | h | h | h | h | h | h | h | h <;> subst h <;>
    simp only [daysInMonth] <;> first | omega | (split <;> omega)

namespace Date

/-- The first year of the calendar. -/
def firstYear : Int := -262143

/-- The last year of the calendar. -/
def lastYear : Int := 262142

end Date

/-- A day of the calendar. -/
structure Date where
  year : Int
  month : Nat
  day : Nat
  year_bounds : Date.firstYear ≤ year ∧ year ≤ Date.lastYear
  month_bounds : 1 ≤ month ∧ month ≤ 12
  day_bounds : 1 ≤ day ∧ day ≤ daysInMonth year month
deriving DecidableEq

namespace Date

/-- The day with these fields, when there is one. -/
def ofFields? (year : Int) (month day : Nat) : Option Date :=
  if bounds : (firstYear ≤ year ∧ year ≤ lastYear) ∧ (1 ≤ month ∧ month ≤ 12) ∧
      (1 ≤ day ∧ day ≤ daysInMonth year month) then
    some ⟨year, month, day, bounds.1, bounds.2.1, bounds.2.2⟩
  else none

/-- The following day; the last day of the calendar has none. -/
def next? (date : Date) : Option Date :=
  if date.day < daysInMonth date.year date.month then
    ofFields? date.year date.month (date.day + 1)
  else if date.month < 12 then ofFields? date.year (date.month + 1) 1
  else ofFields? (date.year + 1) 1 1

/-- The preceding day; the first day of the calendar has none. -/
def previous? (date : Date) : Option Date :=
  if 1 < date.day then ofFields? date.year date.month (date.day - 1)
  else if 1 < date.month then
    ofFields? date.year (date.month - 1) (daysInMonth date.year (date.month - 1))
  else ofFields? (date.year - 1) 12 31

/-- The year as written: four digits, behind a sign when it is outside
`0` to `9999`. -/
def yearText (year : Int) : Text :=
  let digits := Text.padLeft 4 '0' (Numeral.ofNat year.natAbs)
  if year < 0 then '-' :: digits
  else if 9999 < year then '+' :: digits
  else digits

/-- Two digits. -/
def twoDigits (n : Nat) : Text := Text.padLeft 2 '0' (Numeral.ofNat n)

/-- `YYYY-MM-DD`. -/
def toText (date : Date) : Text :=
  yearText date.year ++ '-' :: twoDigits date.month ++ '-' :: twoDigits date.day

end Date

/-- A time of day. A leap second is second 59 with a thousand million
nanoseconds or more. -/
structure Time where
  hour : Nat
  minute : Nat
  second : Nat
  nanosecond : Nat
  hour_lt : hour < 24
  minute_lt : minute < 60
  second_lt : second < 60
  nanosecond_lt : nanosecond < 2000000000
  leap_second : 1000000000 ≤ nanosecond → second = 59
deriving DecidableEq

namespace Time

/-- The time with these fields, when there is one. -/
def ofFields? (hour minute second nanosecond : Nat) : Option Time :=
  if bounds : (hour < 24 ∧ minute < 60 ∧ second < 60) ∧ nanosecond < 2000000000 ∧
      (1000000000 ≤ nanosecond → second = 59) then
    some ⟨hour, minute, second, nanosecond, bounds.1.1, bounds.1.2.1, bounds.1.2.2,
      bounds.2.1, bounds.2.2⟩
  else none

/-- The beginning of the day. -/
def midnight : Time :=
  ⟨0, 0, 0, 0, by decide, by decide, by decide, by decide, by decide⟩

/-- Not a leap second. -/
def IsOrdinary (time : Time) : Prop := time.nanosecond < 1000000000

instance (time : Time) : Decidable time.IsOrdinary :=
  inferInstanceAs (Decidable (_ < _))

/-- `HH:MM:SS`; a leap second shows as second 60. -/
def clockText (time : Time) : Text :=
  Date.twoDigits time.hour ++ ':' :: Date.twoDigits time.minute ++
    ':' :: Date.twoDigits (time.second + time.nanosecond / 1000000000)

/-- The fraction of the second: nothing when it is zero, else a point and at
least nine digits. -/
def fractionText (time : Time) : Text :=
  if time.nanosecond = 0 then []
  else '.' :: Text.padLeft 9 '0' (Numeral.ofNat time.nanosecond)

end Time

/-- A day and a time of that day, in no particular time zone. -/
structure Timestamp where
  date : Date
  time : Time
deriving DecidableEq

namespace Timestamp

/-- `YYYY-MM-DD HH:MM:SS[.nnnnnnnnn]`. -/
def toText (stamp : Timestamp) : Text :=
  stamp.date.toText ++ ' ' :: stamp.time.clockText ++ stamp.time.fractionText

/-- The time of day moved by less than a day of minutes, with the number of
days it moves into: minus one, none or one. Seconds and fraction stay. -/
def shiftTime (time : Time) (minutes : Int) : Int × Time :=
  let total : Int := time.hour * 60 + time.minute + minutes
  let minuteOfDay := (total % 1440).toNat
  (total / 1440,
    { time with
      hour := minuteOfDay / 60
      minute := minuteOfDay % 60
      hour_lt := by
        have : (total % 1440).toNat < 1440 := by omega
        omega
      minute_lt := Nat.mod_lt _ (by decide) })

/-- The timestamp moved by less than a day of minutes, when the result is still
in the calendar. -/
def shift? (stamp : Timestamp) (minutes : Int) : Option Timestamp :=
  let (days, time) := shiftTime stamp.time minutes
  let date? :=
    if days < 0 then stamp.date.previous?
    else if 0 < days then stamp.date.next?
    else some stamp.date
  date?.map (⟨·, time⟩)

end Timestamp

end SqlWire
