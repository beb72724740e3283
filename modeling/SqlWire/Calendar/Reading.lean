import SqlWire.Calendar.Zone
import SqlWire.Text.Blank

/-! Reading dates, timestamps and offsets. Fields are read from left to right,
blanks may stand before each number, and a field outside its range is refused
as soon as it is read; whether the day exists is only asked once the whole text
has been used up. -/
namespace SqlWire.Calendar

/-- Why a text is no date or timestamp. -/
inductive Fault where
  /-- The text ends where a digit or separator is needed. -/
  | tooShort
  /-- Another character stands where a digit or separator is needed. -/
  | unexpected
  /-- A field or the whole day lies outside the calendar. -/
  | outOfRange
  /-- Text follows the last field. -/
  | trailing
  /-- Neither a space nor a `T` separates the day from the time. -/
  | noSeparator
  | badFraction
  | missingOffset
  | invalidOffset
  /-- The universal time lies outside the calendar. -/
  | noUniversalTime
deriving DecidableEq, Repr

def Fault.message : Fault → String
  | .tooShort => "premature end of input"
  | .unexpected => "input contains invalid characters"
  | .outOfRange => "input is out of range"
  | .trailing => "trailing input"
  | .noSeparator => "expected 'YYYY-MM-DD HH:MM:SS'"
  | .badFraction => "fraction must be 1 to 9 digits"
  | .missingOffset => "missing UTC offset"
  | .invalidOffset => "invalid UTC offset"
  | .noUniversalTime => "ambiguous local time"

/-- A separator that has to stand here. -/
def expect (separator : Char) : Text → Except Fault Text
  | [] => .error .tooShort
  | c :: rest => if c = separator then .ok rest else .error .unexpected

/-- The end of the text. -/
def expectEnd : Text → Except Fault Unit
  | [] => .ok ()
  | _ :: _ => .error .trailing

/-- A number of at least one digit and at most `width`, if a width is given. -/
def number (width : Option Nat) (text : Text) : Except Fault (Nat × Text) :=
  let digits := text.takeWhile Char.isDigit
  let digits := match width with
    | some width => digits.take width
    | none => digits
  match text with
  | [] => .error .tooShort
  | c :: _ =>
    if !c.isDigit then .error .unexpected
    else .ok (Numeral.value digits, text.drop digits.length)

/-- A field of one or two digits between `low` and `high`, blanks before it
skipped. -/
def field (low high : Nat) (text : Text) : Except Fault (Nat × Text) := do
  let (n, rest) ← number (some 2) (Text.trimStart text)
  if low ≤ n ∧ n ≤ high then .ok (n, rest) else .error .outOfRange

/-- A year: up to four digits, or a sign and any number of digits. -/
def year (text : Text) : Except Fault (Int × Text) := do
  let (n, rest) ← (match Text.trimStart text with
    | '-' :: digits => (number none digits).map fun (n, rest) => (-(n : Int), rest)
    | '+' :: digits => (number none digits).map fun (n, rest) => ((n : Int), rest)
    | text => (number (some 4) text).map fun (n, rest) => ((n : Int), rest))
  if -2147483648 ≤ n ∧ n < 2147483648 then .ok (n, rest) else .error .outOfRange

/-- A day `YYYY-MM-DD` and nothing else. -/
def readDay (text : Text) : Except Fault Date := do
  let (year, text) ← year text
  let (month, text) ← field 1 12 (← expect '-' text)
  let (day, text) ← field 1 31 (← expect '-' text)
  expectEnd text
  match Date.ofFields? year month day with
  | some date => .ok date
  | none => .error .outOfRange

/-- The clock fields `HH:MM:SS` and nothing else. Second 60 is read as 59. -/
def readClock (text : Text) : Except Fault (Nat × Nat × Nat) := do
  let (hour, text) ← field 0 23 text
  let (minute, text) ← field 0 59 (← expect ':' text)
  let (second, text) ← field 0 60 (← expect ':' text)
  expectEnd text
  .ok (hour, minute, min second 59)

/-- Nanoseconds from one to nine digits of a fraction. -/
def nanoseconds? (digits : Text) : Option Nat :=
  if digits.isEmpty || 9 < digits.length || !digits.all Char.isDigit then none
  else some (Numeral.value digits * Nat.pow 10 (9 - digits.length))

/-- A day and a time of day, separated by a space or a `T`. -/
def readStamp (text : Text) : Except Fault Timestamp := do
  let (day, time) ←
    match Text.cutAt (fun c => c = ' ' || c = 'T') text with
    | some parts => .ok parts
    | none => .error .noSeparator
  let date ← readDay day
  let (clock, fraction) :=
    match Text.cutAt (· = '.') time with
    | some (clock, fraction) => (clock, some fraction)
    | none => (time, none)
  let (hour, minute, second) ← readClock clock
  let nanosecond ←
    match fraction.map nanoseconds? with
    | none => .ok 0
    | some (some n) => .ok n
    | some none => .error .badFraction
  match Time.ofFields? hour minute second nanosecond with
  | some time => .ok ⟨date, time⟩
  | none => .error .outOfRange

/-- A sign followed by two digits of hours, or by two digits of hours and two
of minutes. Colons anywhere behind the sign are ignored. -/
def readOffset? : Text → Option Offset
  | [] => none
  | sign :: body =>
    let digits := body.filter (· != ':')
    let minutes : Option Nat :=
      if !digits.all Char.isDigit then none
      else if digits.length = 2 then some (Numeral.value digits * 60)
      else if digits.length = 4 then
        some (Numeral.value (digits.take 2) * 60 + Numeral.value (digits.drop 2))
      else none
    if sign = '+' then minutes.bind fun m => Offset.ofMinutes? m
    else if sign = '-' then minutes.bind fun m => Offset.ofMinutes? (-m)
    else none

/-- Split the offset off: a final `Z`, or the first sign behind the ten
characters of the day. -/
def splitOffset (text : Text) : Except Fault (Text × Option Offset) :=
  match Text.dropLast? 'Z' text with
  | some wall => .ok (wall, some Offset.zero)
  | none =>
    let head := text.take 10
    let (wall, offset) := (text.drop 10).span fun c => c != '+' && c != '-'
    if offset.isEmpty then .error .missingOffset
    else .ok (head ++ wall, readOffset? offset)

/-- A fault and the text it was met in. -/
structure Refusal where
  text : Text
  fault : Fault
deriving DecidableEq, Repr

/-- A timestamp followed by its offset. A fault of the timestamp is met in it
alone, any other fault in the whole text. -/
def readZoned (text : Text) : Except Refusal ZonedTimestamp := do
  let (wall, offset?) ← (splitOffset text).mapError (⟨text, ·⟩)
  let offset ←
    match offset? with
    | some offset => .ok offset
    | none => .error ⟨text, .invalidOffset⟩
  let wall := Text.trimEnd wall
  let stamp ← (readStamp wall).mapError (⟨wall, ·⟩)
  match ZonedTimestamp.ofWall? stamp offset with
  | some zoned => .ok zoned
  | none => .error ⟨text, .noUniversalTime⟩

end SqlWire.Calendar
