import SqlWire.Calendar.Date
import SqlWire.Number.FloatText
import SqlWire.Toml.Basic

/-! Reading the values of TOML that do not nest: strings in their four forms,
truth values, integers in four bases, floating-point numbers, and dates and
times. Every reader returns what follows the value. -/
namespace SqlWire.Toml

/-- The two blanks. -/
def isBlank (c : Char) : Bool := c = ' ' || c = '\t'

def skipBlanks (text : Text) : Text := text.dropWhile isBlank

/-- What follows a line break, if the text starts with one. -/
def newLine? : Text → Option Text
  | '\n' :: rest => some rest
  | '\r' :: '\n' :: rest => some rest
  | _ => none

/-- Drop one line break at the start. -/
def dropNewLine (text : Text) : Text := (newLine? text).getD text

/-- Characters that stand for themselves in comments, and in strings too when
delimiters and the backslash are set aside. -/
def isPlain (c : Char) : Bool := c = '\t' || (' ' ≤ c && c != '\x7f')

/-- The value of a hexadecimal digit. -/
def hexDigit? (c : Char) : Option Nat :=
  if c.isDigit then some (c.toNat - '0'.toNat)
  else if 'a' ≤ c && c ≤ 'f' then some (c.toNat - 'a'.toNat + 10)
  else if 'A' ≤ c && c ≤ 'F' then some (c.toNat - 'A'.toNat + 10)
  else none

/-- The character whose code point the hexadecimal digits are. -/
def codePoint? (digits : Text) : Option Char := do
  let values ← digits.mapM hexDigit?
  let n := values.foldl (fun n digit => n * 16 + digit) 0
  if n.isValidChar then some (Char.ofNat n) else none

/-- The character an escape of one letter stands for. -/
def escaped? (c : Char) : Option Char :=
  if c = 'b' then some '\x08'
  else if c = 't' then some '\t'
  else if c = 'n' then some '\n'
  else if c = 'f' then some '\x0c'
  else if c = 'r' then some '\r'
  else if c = '"' || c = '\\' then some c
  else none

/-- Put a character before what was read of a string. -/
def prepend (c : Char) (read : Option (Text × Text)) : Option (Text × Text) :=
  read.map fun (value, rest) => (c :: value, rest)

/-- The body and closing quote of a string with escapes. -/
def basicString? : Text → Option (Text × Text)
  | '"' :: rest => some ([], rest)
  | '\\' :: 'u' :: a :: b :: c :: d :: rest => do
    prepend (← codePoint? [a, b, c, d]) (basicString? rest)
  | '\\' :: 'U' :: a :: b :: c :: d :: e :: f :: g :: h :: rest => do
    prepend (← codePoint? [a, b, c, d, e, f, g, h]) (basicString? rest)
  | '\\' :: c :: rest => do prepend (← escaped? c) (basicString? rest)
  | c :: rest => if isPlain c && c != '\\' then prepend c (basicString? rest) else none
  | [] => none

/-- The body and closing quote of a string without escapes. -/
def literalString? : Text → Option (Text × Text)
  | '\'' :: rest => some ([], rest)
  | c :: rest => if isPlain c then prepend c (literalString? rest) else none
  | [] => none

/-- Up to two more quotes behind the first three that end a string of several
lines belong to the string. -/
def closing (quote : Char) : Text → Text × Text
  | a :: b :: rest =>
    if a = quote then
      if b = quote then ([quote, quote], rest) else ([quote], b :: rest)
    else ([], a :: b :: rest)
  | [a] => if a = quote then ([quote], []) else ([], [a])
  | [] => ([], [])

/-- The body and closing quotes of a string with escapes over several lines. A
backslash at the end of a line drops the line break and all blanks and line
breaks behind it; while they are dropped, `dropping` is set. -/
def basicLines? (dropping : Bool) : Text → Option (Text × Text)
  | '"' :: '"' :: '"' :: rest => some (closing '"' rest)
  | '\n' :: rest =>
    if dropping then basicLines? true rest else prepend '\n' (basicLines? false rest)
  | '\r' :: '\n' :: rest =>
    if dropping then basicLines? true rest else prepend '\n' (basicLines? false rest)
  | '\\' :: 'u' :: a :: b :: c :: d :: rest => do
    prepend (← codePoint? [a, b, c, d]) (basicLines? false rest)
  | '\\' :: 'U' :: a :: b :: c :: d :: e :: f :: g :: h :: rest => do
    prepend (← codePoint? [a, b, c, d, e, f, g, h]) (basicLines? false rest)
  | '\\' :: c :: rest =>
    if (newLine? (skipBlanks (c :: rest))).isSome then basicLines? true rest
    else do prepend (← escaped? c) (basicLines? false rest)
  | c :: rest =>
    if dropping && isBlank c then basicLines? true rest
    else if isPlain c && c != '\\' then prepend c (basicLines? false rest)
    else none
  | [] => none

/-- The body and closing quotes of a string without escapes over several
lines. -/
def literalLines? : Text → Option (Text × Text)
  | '\'' :: '\'' :: '\'' :: rest => some (closing '\'' rest)
  | '\n' :: rest => prepend '\n' (literalLines? rest)
  | '\r' :: '\n' :: rest => prepend '\n' (literalLines? rest)
  | c :: rest => if isPlain c then prepend c (literalLines? rest) else none
  | [] => none

/-- A string in any of its four forms. A line break right behind three opening
quotes is dropped. -/
def string? : Text → Option (Toml × Text)
  | '"' :: '"' :: '"' :: rest => (basicLines? false (dropNewLine rest)).map named
  | '\'' :: '\'' :: '\'' :: rest => (literalLines? (dropNewLine rest)).map named
  | '"' :: rest => (basicString? rest).map named
  | '\'' :: rest => (literalString? rest).map named
  | _ => none
where
  named : Text × Text → Toml × Text
  | (value, rest) => (.string value, rest)

/-- More digits of a number. An underscore stands between two digits only. -/
def moreDigits? (isDigit : Char → Bool) : Text → Option (Text × Text)
  | '_' :: c :: rest => if isDigit c then prepend c (moreDigits? isDigit rest) else none
  | ['_'] => none
  | c :: rest =>
    if isDigit c then prepend c (moreDigits? isDigit rest) else some ([], c :: rest)
  | [] => some ([], [])

/-- One digit or more. -/
def digits? (isDigit : Char → Bool) : Text → Option (Text × Text)
  | c :: rest => if isDigit c then prepend c (moreDigits? isDigit rest) else none
  | [] => none

/-- A sign, if there is one. -/
def sign : Text → Text × Text
  | '+' :: rest => (['+'], rest)
  | '-' :: rest => (['-'], rest)
  | text => ([], text)

/-- Decimal digits without leading zeros. -/
def wholeDigits? : Text → Option (Text × Text)
  | '0' :: rest => some (['0'], rest)
  | text => digits? Char.isDigit text

/-- The largest integer. -/
def maxInteger : Int := 9223372036854775807

/-- An integer of the range. -/
def inRange? (n : Int) : Option Toml :=
  if -maxInteger - 1 ≤ n ∧ n ≤ maxInteger then some (.integer n) else none

/-- An unsigned integer in another base, behind its mark. -/
def based? (base : Nat) (text : Text) : Option (Toml × Text) := do
  let isDigit (c : Char) : Bool := (hexDigit? c).any (· < base)
  let (digits, rest) ← digits? isDigit text
  let n := Digits.value base (digits.map fun c => (hexDigit? c).getD 0)
  some (← inRange? n, rest)

/-- The fraction of a number, its point included, if there is one. -/
def fraction? : Text → Option (Text × Text)
  | '.' :: rest => prepend '.' (digits? Char.isDigit rest)
  | text => some ([], text)

/-- The exponent of a number, its letter included, if there is one. -/
def exponent? : Text → Option (Text × Text)
  | c :: rest =>
    if c = 'e' || c = 'E' then do
      let (mark, rest) := sign rest
      let (digits, rest) ← digits? Char.isDigit rest
      some ('e' :: mark ++ digits, rest)
    else some ([], c :: rest)
  | [] => some ([], [])

/-- A decimal number. It is a float when it has a fraction or an exponent, and
then not too large for one. -/
def decimal? (text : Text) : Option (Toml × Text) := do
  let (mark, text) := sign text
  let (whole, text) ← wholeDigits? text
  let (fraction, text) ← fraction? text
  let (exponent, text) ← exponent? text
  if fraction.isEmpty && exponent.isEmpty then
    let n : Int := Numeral.value whole
    some (← inRange? (if mark = ['-'] then -n else n), text)
  else
    let value ← FloatText.readNumeral? (mark ++ whole ++ fraction ++ exponent)
    if value == 1.0 / 0.0 then none else some (.float value, text)

/-- The words for floats that are no numbers. -/
def special? (text : Text) : Option (Toml × Text) :=
  let (mark, text) := sign text
  match text with
  | 'i' :: 'n' :: 'f' :: rest =>
    some (.float (if mark = ['-'] then -1.0 / 0.0 else 1.0 / 0.0), rest)
  | 'n' :: 'a' :: 'n' :: rest => some (.float (0.0 / 0.0), rest)
  | _ => none

/-- A number in any of its forms. -/
def number? : Text → Option (Toml × Text)
  | '0' :: 'x' :: rest => based? 16 rest
  | '0' :: 'o' :: rest => based? 8 rest
  | '0' :: 'b' :: rest => based? 2 rest
  | text => (special? text).orElse fun _ => decimal? text

/-- A field of exactly `width` digits between two bounds. -/
def field? (width low high : Nat) (text : Text) : Option (Nat × Text) :=
  let digits := text.take width
  let n := Numeral.value digits
  if digits.length = width ∧ digits.all Char.isDigit ∧ low ≤ n ∧ n ≤ high then
    some (n, text.drop width)
  else none

/-- A character that has to come next. -/
def mark? (mark : Char) : Text → Option Text
  | c :: rest => if c = mark then some rest else none
  | [] => none

/-- What follows a day `YYYY-MM-DD` of the calendar. -/
def afterDay? (text : Text) : Option Text := do
  let (year, text) ← field? 4 0 9999 text
  let (month, text) ← field? 2 1 12 (← mark? '-' text)
  let (_, text) ← field? 2 1 (daysInMonth year month) (← mark? '-' text)
  some text

/-- What follows a time of day `HH:MM:SS`, with or without a fraction. -/
def afterTime? (text : Text) : Option Text := do
  let (_, text) ← field? 2 0 23 text
  let (_, text) ← field? 2 0 59 (← mark? ':' text)
  let (_, text) ← field? 2 0 60 (← mark? ':' text)
  match text with
  | '.' :: rest =>
    let (digits, after) := rest.span Char.isDigit
    if digits.isEmpty then some text else some after
  | _ => some text

/-- What follows an offset, `Z` or `±HH:MM`. -/
def afterOffset? : Text → Option Text
  | c :: rest =>
    if c = 'Z' || c = 'z' then some rest
    else if c = '+' || c = '-' then do
      let (_, text) ← field? 2 0 23 rest
      let (_, text) ← field? 2 0 59 (← mark? ':' text)
      some text
    else none
  | [] => none

/-- What follows the time behind a day, if there is one, and its offset. -/
def afterClock : Text → Text
  | c :: rest =>
    if c = 'T' || c = 't' || c = ' ' then
      match afterTime? rest with
      | some after => (afterOffset? after).getD after
      | none => c :: rest
    else c :: rest
  | [] => []

/-- A date, a time, or both. -/
def moment? (text : Text) : Option (Toml × Text) := do
  let rest ← ((afterDay? text).map afterClock).orElse fun _ => afterTime? text
  some (.moment, rest)

/-- A truth value. -/
def boolean? : Text → Option (Toml × Text)
  | 't' :: 'r' :: 'u' :: 'e' :: rest => some (.boolean true, rest)
  | 'f' :: 'a' :: 'l' :: 's' :: 'e' :: rest => some (.boolean false, rest)
  | _ => none

/-- A value that does not nest. -/
def scalar? (text : Text) : Option (Toml × Text) :=
  (string? text).orElse fun _ =>
    (boolean? text).orElse fun _ => (moment? text).orElse fun _ => number? text

end SqlWire.Toml
