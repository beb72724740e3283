import Mathlib.Data.List.Induction
import Mathlib.Tactic.Linarith
import Mathlib.Tactic.Ring
import SqlWire.Number.Numeral
import SqlWire.Proofs.Outcomes
import SqlWire.Text.Blank

/-! Numerals denote the numbers they are printed for. Reading goes through the
value of a string of digits, which does not change with zeros in front, and never
leaves the range on the way to a number inside it. Nothing but digits is read, with
a sign before them or none. -/
namespace SqlWire.NumeralText
open Numeral

/-- Nothing but decimal digits. -/
def AllDigits (text : Text) : Prop := ∀ c ∈ text, c.isDigit = true

/-- A digit is none of the other characters. -/
theorem digit_ne {c d : Char} (digit : c.isDigit = true) (other : d.isDigit = false) : c ≠ d := by
  rintro rfl
  rw [digit] at other
  cases other

theorem digit_not_mem {c : Char} (digit : c.isDigit = true) (others : List Char)
    (free : others.any Char.isDigit = false) : c ∉ others := by
  intro member
  rw [List.any_eq_false] at free
  exact free c member digit

theorem digit_range {c : Char} (digit : c.isDigit = true) : 48 ≤ c.toNat ∧ c.toNat ≤ 57 := by
  simp only [Char.isDigit, Bool.and_eq_true, decide_eq_true_eq, ge_iff_le,
    UInt32.le_iff_toNat_le] at digit
  exact digit

/-- Digits have no case. -/
theorem digit_lower {c : Char} (digit : c.isDigit = true) : c.toLower = c := by
  obtain ⟨-, small⟩ := digit_range digit
  apply dif_neg
  rintro ⟨capital, -⟩
  rw [ge_iff_le, UInt32.le_iff_toNat_le] at capital
  have : 65 ≤ c.toNat := capital
  omega

theorem digit_not_blank {c : Char} (digit : c.isDigit = true) : Text.isBlank c = false := by
  have range := digit_range digit
  unfold Text.isBlank
  generalize c.toNat = n at range
  simp only [Bool.or_eq_false_iff, Bool.and_eq_false_imp, decide_eq_true_eq,
    decide_eq_false_iff_not, Nat.not_le]
  omega

theorem digits_value (digits : Text) : value digits = Nat.ofDigitChars 10 digits 0 := by
  rw [value, Digits.value_eq]
  induction digits using List.reverseRecOn with
  | nil => rfl
  | append_singleton digits c ih =>
    simp only [List.map_append, List.map_cons, List.map_nil, List.reverse_append,
      List.reverse_cons, List.reverse_nil, List.nil_append, List.cons_append, Digits.toNat, ih,
      Nat.ofDigitChars_append, Nat.ofDigitChars_cons, Nat.ofDigitChars_nil, digitValue]
    omega

/-- Digits behind others count for the powers of ten below them. -/
theorem value_append (front back : Text) :
    value (front ++ back) = value front * 10 ^ back.length + value back := by
  rw [digits_value, digits_value, digits_value, Nat.ofDigitChars_append,
    Nat.ofDigitChars_eq_ofDigitChars_zero, Nat.mul_comm]

theorem value_numeral (n : Nat) : value (ofNat n) = n := by
  rw [digits_value, ofNat_eq, Nat.ofDigitChars_ten_toDigits]

theorem numeral_digits (n : Nat) : AllDigits (ofNat n) := by
  intro c member
  rw [ofNat_eq] at member
  exact Nat.isDigit_of_mem_toDigits (by decide) (by decide) member

theorem numeral_not_empty (n : Nat) : ofNat n ≠ [] := by
  rw [ofNat_eq]
  exact Nat.toDigits_ne_nil

theorem numeral_length (pos : 0 < width) : (ofNat n).length ≤ width ↔ n < 10 ^ width := by
  rw [ofNat_eq]
  exact Nat.length_toDigits_le_iff (by decide) pos

/-- A number with more than one digit is at least the power of ten with as many. -/
theorem numeral_bounds (n : Nat) (more : 1 < (ofNat n).length) :
    10 ^ ((ofNat n).length - 1) ≤ n ∧ n < 10 ^ (ofNat n).length := by
  refine ⟨Nat.not_lt.mp fun less => ?_, (numeral_length (by omega)).mp le_rfl⟩
  have short := (numeral_length (by omega)).mpr less
  omega

/-- Zeros in front of digits do not count. -/
theorem value_padded (width : Nat) (digits : Text) :
    value (Text.padLeft width '0' digits) = value digits := by
  rw [Text.padLeft, value_append, digits_value (Text.repeated _ _), Text.repeated,
    Nat.ofDigitChars_replicate_zero, Nat.mul_zero, Nat.zero_mul, Nat.zero_add]

theorem padded_digits (width : Nat) (digits : AllDigits text) :
    AllDigits (Text.padLeft width '0' text) := by
  intro c member
  rcases List.mem_append.mp member with zero | member
  · rw [List.eq_of_mem_replicate zero]
    decide
  · exact digits c member

theorem padded_length (width : Nat) (text : Text) :
    (Text.padLeft width '0' text).length = max width text.length := by
  simp only [Text.padLeft, Text.repeated, List.length_append, List.length_replicate]
  omega

private theorem value_cons (c : Char) (digits : Text) :
    value (c :: digits) = digitValue c * 10 ^ digits.length + value digits := by
  have single : value [c] = digitValue c := by
    rw [digits_value, Nat.ofDigitChars_cons, Nat.ofDigitChars_nil, digitValue, Nat.mul_zero,
      Nat.zero_add]
  simpa [single] using value_append [c] digits

private theorem value_last (front : Text) (c : Char) :
    value (front ++ [c]) = value front * 10 + digitValue c := by
  rw [value_append, value_cons]
  simp [digits_value]

private theorem digit_char {c : Char} (digit : c.isDigit = true) :
    digitValue c < 10 ∧ Nat.digitChar (digitValue c) = c := by
  obtain ⟨above, below⟩ := digit_range digit
  have value : digitValue c = c.toNat - 48 := rfl
  have small : digitValue c < 10 := by omega
  refine ⟨small, Char.toNat_inj.mp ?_⟩
  rw [Nat.toNat_digitChar_of_lt_ten small]
  omega

/-- As many digits as were written are the digits written. -/
theorem last_digits (digits : AllDigits text) (behind : Text) :
    Digits.lastOnto text.length (value text) behind = text ++ behind := by
  induction text using List.reverseRecOn generalizing behind with
  | nil => rfl
  | append_singleton front c ih =>
    have numeric : AllDigits front := fun d member => digits d (List.mem_append_left _ member)
    obtain ⟨small, same⟩ := digit_char (digits c (by simp))
    have upper : (value front * 10 + digitValue c) / 10 = value front := by
      omega
    have lower : (value front * 10 + digitValue c) % 10 = digitValue c := by
      omega
    rw [List.length_append, List.length_singleton, Digits.lastOnto, value_last, upper, lower, same,
      ih numeric, List.append_assoc, List.singleton_append]

theorem value_bound (digits : AllDigits text) : value text < 10 ^ text.length := by
  induction text using List.reverseRecOn with
  | nil => simp [digits_value]
  | append_singleton front c ih =>
    have numeric : AllDigits front := fun d member => digits d (List.mem_append_left _ member)
    obtain ⟨small, -⟩ := digit_char (digits c (by simp))
    have bound := ih numeric
    rw [value_last, List.length_append, List.length_singleton, Nat.pow_succ]
    omega

/-- Without the zeros in front of them, the digits of a number are its numeral. -/
theorem zeros_dropped (digits : AllDigits text) (positive : 0 < value text) :
    text.dropWhile (· = '0') = ofNat (value text) := by
  have printed := Digits.dropWhile_lastOnto positive (value_bound digits) []
  rwa [last_digits digits, List.append_nil, List.append_nil, ← ofNat_eq] at printed

/-- Digits are determined by their number and their value. -/
theorem digits_unique (one : AllDigits left) (two : AllDigits right)
    (length : left.length = right.length) (value : value left = value right) :
    left = right := by
  have first := last_digits one []
  have second := last_digits two []
  rw [length, value, second] at first
  simpa using first.symm

theorem zeros_value (count : Nat) : value (List.replicate count '0') = 0 := by
  rw [digits_value, Nat.ofDigitChars_replicate_zero, Nat.mul_zero]

theorem zero_value_iff (numeric : AllDigits digits) :
    value digits = 0 ↔ digits.all (· = '0') = true := by
  have zeros : AllDigits (List.replicate digits.length '0') := by
    intro c member
    rw [List.eq_of_mem_replicate member]
    decide
  constructor
  · intro zero
    have same := digits_unique numeric zeros (by simp) (by rw [zero, zeros_value])
    rw [same]
    simp
  · intro zero
    have same : digits = List.replicate digits.length '0' :=
      List.eq_replicate_iff.mpr ⟨rfl, by simpa using zero⟩
    rw [same, zeros_value]

/-- A sign before digits, or none. -/
inductive Sign where
  | absent
  | plus
  | minus
deriving DecidableEq, Repr

namespace Sign

def text : Sign → Text
  | absent => []
  | plus => ['+']
  | minus => ['-']

/-- What a sign multiplies the number behind it by. -/
def factor : Sign → Int
  | absent => 1
  | plus => 1
  | minus => -1

end Sign

/-- A text writes an integer in digits, with a sign before them or none. -/
def Writes (text : Text) (n : Int) : Prop :=
  ∃ (sign : Sign) (digits : Text), text = sign.text ++ digits ∧ digits ≠ [] ∧
    AllDigits digits ∧ n = sign.factor * value digits

/-- A sign does not change a magnitude. -/
theorem signed_magnitude (sign : Sign) (n : Nat) : (sign.factor * (n : Int)).natAbs = n := by
  cases sign <;> simp [Sign.factor]

section Reading
variable {low high acc n : Int} {text : Text}

private theorem digit_value_nonneg (c : Char) : (0 : Int) ≤ digitValue c := Int.natCast_nonneg _

/-- Reading upwards arrives at the value of the digits when that is in range. -/
theorem read_up_value (digits : AllDigits text) (nonneg : 0 ≤ acc)
    (fits : acc * 10 ^ text.length + value text ≤ high) :
    readUp high acc text = .ok (acc * 10 ^ text.length + value text) := by
  induction text generalizing acc with
  | nil => simp [readUp, digits_value]
  | cons c text ih =>
    have first : c.isDigit = true := digits c List.mem_cons_self
    have others : AllDigits text := fun d member => digits d (List.mem_cons_of_mem _ member)
    have step : acc * 10 ^ (c :: text).length + (value (c :: text) : Int) =
        (acc * 10 + digitValue c) * 10 ^ text.length + value text := by
      rw [value_cons, List.length_cons]
      push_cast
      ring
    have digit := digit_value_nonneg c
    have here : acc * 10 + digitValue c ≤ high := by
      have power : (1 : Int) ≤ 10 ^ text.length := one_le_pow₀ (by decide)
      have := le_mul_of_one_le_right (by omega : 0 ≤ acc * 10 + digitValue c) power
      omega
    rw [step] at fits ⊢
    rw [readUp]
    simp only [first, Bool.not_true, Bool.false_eq_true, ↓reduceIte, here]
    exact ih others (by omega) fits

/-- Reading downwards arrives at minus the value of the digits when that is in
range. -/
theorem read_down_value (digits : AllDigits text) (nonpos : acc ≤ 0)
    (fits : low ≤ acc * 10 ^ text.length - value text) :
    readDown low acc text = .ok (acc * 10 ^ text.length - value text) := by
  induction text generalizing acc with
  | nil => simp [readDown, digits_value]
  | cons c text ih =>
    have first : c.isDigit = true := digits c List.mem_cons_self
    have others : AllDigits text := fun d member => digits d (List.mem_cons_of_mem _ member)
    have step : acc * 10 ^ (c :: text).length - (value (c :: text) : Int) =
        (acc * 10 - digitValue c) * 10 ^ text.length - value text := by
      rw [value_cons, List.length_cons]
      push_cast
      ring
    have digit := digit_value_nonneg c
    have here : low ≤ acc * 10 - digitValue c := by
      have power : (1 : Int) ≤ 10 ^ text.length := one_le_pow₀ (by decide)
      have := mul_le_of_one_le_right (by omega : acc * 10 - digitValue c ≤ 0) power
      omega
    rw [step] at fits ⊢
    rw [readDown]
    simp only [first, Bool.not_true, Bool.false_eq_true, ↓reduceIte, here]
    exact ih others (by omega) fits

private theorem read_up_sound (reads : readUp high acc text = .ok n) :
    AllDigits text ∧ n = acc * 10 ^ text.length + value text := by
  induction text generalizing acc with
  | nil =>
    cases reads
    exact ⟨by simp [AllDigits], by simp [digits_value]⟩
  | cons c text ih =>
    rw [readUp] at reads
    split at reads
    · cases reads
    next digit =>
      dsimp only at reads
      split at reads
      next room =>
        obtain ⟨others, same⟩ := ih reads
        refine ⟨List.forall_mem_cons.mpr ⟨by simpa using digit, others⟩, ?_⟩
        rw [same, value_cons, List.length_cons]
        push_cast
        ring
      · cases reads

private theorem read_down_sound (reads : readDown low acc text = .ok n) :
    AllDigits text ∧ n = acc * 10 ^ text.length - value text := by
  induction text generalizing acc with
  | nil =>
    cases reads
    exact ⟨by simp [AllDigits], by simp [digits_value]⟩
  | cons c text ih =>
    rw [readDown] at reads
    split at reads
    · cases reads
    next digit =>
      dsimp only at reads
      split at reads
      next room =>
        obtain ⟨others, same⟩ := ih reads
        refine ⟨List.forall_mem_cons.mpr ⟨by simpa using digit, others⟩, ?_⟩
        rw [same, value_cons, List.length_cons]
        push_cast
        ring
      · cases reads

/-- An integer is read from digits, with or without a sign before them. -/
theorem integer_sound (reads : readInteger low high text = .ok n) : Writes text n := by
  unfold readInteger at reads
  split at reads
  · cases reads
  · cases reads
  · cases reads
  next digits single =>
    obtain ⟨numeric, same⟩ := read_up_sound reads
    exact ⟨.plus, digits, rfl, single, numeric, by simp [same, Sign.factor]⟩
  next digits single =>
    obtain ⟨numeric, same⟩ := read_down_sound reads
    exact ⟨.minus, digits, rfl, single, numeric, by simp [same, Sign.factor]⟩
  next some _ _ _ _ =>
    obtain ⟨numeric, same⟩ := read_up_sound reads
    exact ⟨.absent, text, rfl, some, numeric, by simp [same, Sign.factor]⟩

theorem integer_complete (sign : Sign) {digits : Text} (some : digits ≠ [])
    (numeric : AllDigits digits) (above : low ≤ sign.factor * value digits)
    (below : sign.factor * value digits ≤ high) :
    readInteger low high (sign.text ++ digits) = .ok (sign.factor * value digits) := by
  obtain ⟨c, rest, rfl⟩ := List.exists_cons_of_ne_nil some
  cases sign with
  | absent =>
    have reads : readUp high 0 (c :: rest) = .ok _ :=
      read_up_value numeric le_rfl (by simpa [Sign.factor] using below)
    have digit := numeric c List.mem_cons_self
    have plus : c ≠ '+' := digit_ne digit (by decide)
    have minus : c ≠ '-' := digit_ne digit (by decide)
    have upwards : readInteger low high (c :: rest) = readUp high 0 (c :: rest) := by
      unfold readInteger
      split <;> simp_all
    simpa [Sign.text, Sign.factor, upwards] using reads
  | plus =>
    have reads : readUp high 0 (c :: rest) = .ok _ :=
      read_up_value numeric le_rfl (by simpa [Sign.factor] using below)
    simpa [Sign.text, Sign.factor, readInteger] using reads
  | minus =>
    have reads : readDown low 0 (c :: rest) = .ok _ :=
      read_down_value numeric le_rfl (by simpa [Sign.factor] using above)
    simpa [Sign.text, Sign.factor, readInteger] using reads

/-- Digits alone write their value. -/
theorem digits_write (some : text ≠ []) (numeric : AllDigits text) :
    Writes text n ↔ n = value text := by
  constructor
  · rintro ⟨sign, digits, rfl, -, -, rfl⟩
    cases sign with
    | absent => simp [Sign.text, Sign.factor]
    | plus => exact absurd rfl (digit_ne (numeric '+' List.mem_cons_self) rfl)
    | minus => exact absurd rfl (digit_ne (numeric '-' List.mem_cons_self) rfl)
  · rintro rfl
    exact ⟨.absent, text, rfl, some, numeric, by simp [Sign.factor]⟩

private theorem read_up_range (nonneg : 0 ≤ acc) (fits : acc ≤ high)
    (reads : readUp high acc text = .ok n) : 0 ≤ n ∧ n ≤ high := by
  induction text generalizing acc with
  | nil =>
    cases reads
    exact ⟨nonneg, fits⟩
  | cons c text ih =>
    rw [readUp] at reads
    split at reads
    · cases reads
    · dsimp only at reads
      split at reads
      next room =>
        have digit := digit_value_nonneg c
        exact ih (by omega) room reads
      · cases reads

private theorem read_down_range (nonpos : acc ≤ 0) (fits : low ≤ acc)
    (reads : readDown low acc text = .ok n) : low ≤ n ∧ n ≤ 0 := by
  induction text generalizing acc with
  | nil =>
    cases reads
    exact ⟨fits, nonpos⟩
  | cons c text ih =>
    rw [readDown] at reads
    split at reads
    · cases reads
    · dsimp only at reads
      split at reads
      next room =>
        have digit := digit_value_nonneg c
        exact ih (by omega) room reads
      · cases reads

private theorem integer_range (least : low ≤ 0) (most : 0 ≤ high)
    (reads : readInteger low high text = .ok n) : low ≤ n ∧ n ≤ high := by
  unfold readInteger at reads
  split at reads
  · cases reads
  · cases reads
  · cases reads
  · obtain ⟨nonneg, below⟩ := read_up_range le_rfl most reads
    exact ⟨least.trans nonneg, below⟩
  · obtain ⟨above, nonpos⟩ := read_down_range le_rfl least reads
    exact ⟨above, nonpos.trans most⟩
  · obtain ⟨nonneg, below⟩ := read_up_range le_rfl most reads
    exact ⟨least.trans nonneg, below⟩

/-- The integers read are those written that lie in the range. -/
theorem read_integer_iff (least : low ≤ 0) (most : 0 ≤ high) :
    readInteger low high text = .ok n ↔ Writes text n ∧ low ≤ n ∧ n ≤ high := by
  constructor
  · intro reads
    exact ⟨integer_sound reads, integer_range least most reads⟩
  · rintro ⟨⟨sign, digits, rfl, some, numeric, rfl⟩, above, below⟩
    exact integer_complete sign some numeric above below

end Reading

/-- A text writes one integer at most. -/
theorem writes_unique (one : Writes text n) (two : Writes text m) : n = m := by
  have read := fun (k : Int) (written : Writes text k) (least : min n m ≤ k) (most : k ≤ max n m) =>
    (@read_integer_iff (min 0 (min n m)) (max 0 (max n m)) k text (by omega) (by omega)).mpr
      ⟨written, by omega, by omega⟩
  have first := read n one (by omega) (by omega)
  have second := read m two (by omega) (by omega)
  rw [first] at second
  exact Except.ok.inj second

/-- A width of integers reads those written that it holds. -/
private theorem read_width_iff {ofInteger : Int → α} {toInteger : α → Int}
    (least : low ≤ 0) (most : 0 ≤ high)
    (holds : ∀ a, low ≤ toInteger a ∧ toInteger a ≤ high)
    (same : ∀ a, ofInteger (toInteger a) = a)
    (kept : ∀ n, low ≤ n → n ≤ high → toInteger (ofInteger n) = n) (a : α) :
    (readInteger low high text).map ofInteger = .ok a ↔ Writes text (toInteger a) := by
  constructor
  · intro reads
    obtain ⟨n, read, rfl⟩ := Outcomes.map_ok reads
    obtain ⟨written, above, below⟩ := (read_integer_iff least most).mp read
    rwa [kept n above below]
  · intro written
    have read := (read_integer_iff least most).mpr ⟨written, holds a⟩
    rw [read, Except.map, same]

theorem read_int16_iff (n : Int16) : readInt16 text = .ok n ↔ Writes text n.toInt :=
  read_width_iff (by decide) (by decide)
    (fun n => ⟨n.le_toInt, Int.le_of_lt_add_one n.toInt_lt⟩) Int16.ofInt_toInt
    (fun _ above below => Int16.toInt_ofInt_of_le above (Int.lt_add_one_of_le below)) n

theorem read_int32_iff (n : Int32) : readInt32 text = .ok n ↔ Writes text n.toInt :=
  read_width_iff (by decide) (by decide)
    (fun n => ⟨n.le_toInt, Int.le_of_lt_add_one n.toInt_lt⟩) Int32.ofInt_toInt
    (fun _ above below => Int32.toInt_ofInt_of_le above (Int.lt_add_one_of_le below)) n

theorem read_int64_iff (n : Int64) : readInt64 text = .ok n ↔ Writes text n.toInt :=
  read_width_iff (by decide) (by decide)
    (fun n => ⟨n.le_toInt, Int.le_of_lt_add_one n.toInt_lt⟩) Int64.ofInt_toInt
    (fun _ above below => Int64.toInt_ofInt_of_le above (Int.lt_add_one_of_le below)) n

/-- The numeral of an integer writes it. -/
theorem numeral_writes (n : Int) : Writes (ofInt n) n := by
  have some := numeral_not_empty n.natAbs
  have digits := numeral_digits n.natAbs
  by_cases negative : n < 0
  · refine ⟨.minus, _, by rw [ofInt, if_pos negative]; rfl, some, digits, ?_⟩
    rw [value_numeral, Sign.factor]
    omega
  · refine ⟨.absent, _, by rw [ofInt, if_neg negative]; rfl, some, digits, ?_⟩
    rw [value_numeral, Sign.factor]
    omega

theorem read_int16_numeral (n : Int16) : readInt16 (ofInt n.toInt) = .ok n :=
  (read_int16_iff n).mpr (numeral_writes n.toInt)

theorem read_int32_numeral (n : Int32) : readInt32 (ofInt n.toInt) = .ok n :=
  (read_int32_iff n).mpr (numeral_writes n.toInt)

theorem read_int64_numeral (n : Int64) : readInt64 (ofInt n.toInt) = .ok n :=
  (read_int64_iff n).mpr (numeral_writes n.toInt)

end SqlWire.NumeralText
