import SqlWire.Number.Digits

/-! Decimal numerals of integers. Printing gives the digits without leading
zeros; reading takes an optional sign and any number of digits and refuses what
does not fit the range asked for. -/
namespace SqlWire.Numeral

/-- The value of a decimal digit. -/
def digitValue (c : Char) : Nat := c.toNat - '0'.toNat

/-- The value of a string of decimal digits. -/
def value (digits : Text) : Nat := Digits.value 10 (digits.map digitValue)

/-- The decimal numeral of a natural number. -/
def ofNat (n : Nat) : Text :=
  if n < 18446744073709551616 then Nat.toDigits 10 n
  else (Digits.halvedOnto (Digits.levelOf n) n []).dropWhile (· = '0')

/-- Numbers of every size have the numeral that dividing by ten gives. -/
theorem ofNat_eq (n : Nat) : ofNat n = Nat.toDigits 10 n := by
  unfold ofNat
  split
  · rfl
  · rw [Digits.halvedOnto_eq, Digits.dropWhile_lastOnto (by omega) (Digits.lt_levelOf n),
      List.append_nil]

/-- The decimal numeral of an integer. -/
def ofInt (n : Int) : Text :=
  if n < 0 then '-' :: ofNat n.natAbs else ofNat n.natAbs

/-- The numeral in lower-case hexadecimal, filled up with zeros to `width`. -/
def hex (width n : Nat) : Text := Text.padLeft width '0' (Nat.toDigits 16 n)

/-- Why a text is no integer of the range. -/
inductive IntegerFault where
  | empty
  | invalidDigit
  | tooLarge
  | tooSmall
deriving DecidableEq, Repr

def IntegerFault.message : IntegerFault → String
  | .empty => "cannot parse integer from empty string"
  | .invalidDigit => "invalid digit found in string"
  | .tooLarge => "number too large to fit in target type"
  | .tooSmall => "number too small to fit in target type"

/-- Read digits onto `acc`, upwards. The first digit that leaves the range ends
the reading, so a bad character after it is not noticed. -/
def readUp (high : Int) (acc : Int) : Text → Except IntegerFault Int
  | [] => .ok acc
  | c :: rest =>
    if !c.isDigit then .error .invalidDigit
    else
      let next := acc * 10 + digitValue c
      if next ≤ high then readUp high next rest else .error .tooLarge

/-- Read digits onto `acc`, downwards. -/
def readDown (low : Int) (acc : Int) : Text → Except IntegerFault Int
  | [] => .ok acc
  | c :: rest =>
    if !c.isDigit then .error .invalidDigit
    else
      let next := acc * 10 - digitValue c
      if low ≤ next then readDown low next rest else .error .tooSmall

/-- The integer a text denotes: an optional sign and at least one digit, with a
value from `low` to `high`. -/
def readInteger (low high : Int) : Text → Except IntegerFault Int
  | [] => .error .empty
  | ['+'] | ['-'] => .error .invalidDigit
  | '+' :: digits => readUp high 0 digits
  | '-' :: digits => readDown low 0 digits
  | digits => readUp high 0 digits

/-- The integer a text denotes, when it fits 64 bits. -/
def readInt64 (text : Text) : Except IntegerFault Int64 :=
  (readInteger (-9223372036854775808) 9223372036854775807 text).map Int64.ofInt

/-- The integer a text denotes, when it fits 32 bits. -/
def readInt32 (text : Text) : Except IntegerFault Int32 :=
  (readInteger (-2147483648) 2147483647 text).map Int32.ofInt

/-- The integer a text denotes, when it fits 16 bits. -/
def readInt16 (text : Text) : Except IntegerFault Int16 :=
  (readInteger (-32768) 32767 text).map Int16.ofInt

/-- The natural number a text denotes, when it is below `2 ^ 64`. A minus sign
is no digit here. -/
def readSize (text : Text) : Except IntegerFault Nat :=
  match text with
  | [] => .error .empty
  | ['+'] => .error .invalidDigit
  | '+' :: digits => (readUp 18446744073709551615 0 digits).map Int.toNat
  | digits => (readUp 18446744073709551615 0 digits).map Int.toNat

end SqlWire.Numeral
