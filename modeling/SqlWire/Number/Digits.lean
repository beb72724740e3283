import SqlWire.Text.Basic

/-! Numbers as lists of digits, and back, for numbers of any length. The plain
definitions take one step a digit, and each step is as long as the number; the
others halve the number first, so that only few products and divisions are of
large numbers. The theorems say that they agree. -/
namespace SqlWire.Digits

/-- The number whose digits in a base stand least significant first. -/
def toNat (base : Nat) : List Nat → Nat
  | [] => 0
  | digit :: digits => digit + base * toNat base digits

/-- Each two neighbouring digits as one digit in the square of the base. -/
def pairUp (base : Nat) : List Nat → List Nat
  | low :: high :: digits => (low + base * high) :: pairUp base digits
  | digits => digits

private theorem toNat_pairUp (base : Nat) (digits : List Nat) :
    toNat (base * base) (pairUp base digits) = toNat base digits := by
  induction digits using pairUp.induct with
  | case1 low high digits ih =>
    simp only [pairUp, toNat, ih, Nat.mul_add, Nat.mul_assoc, Nat.add_assoc]
  | case2 digits short =>
    match digits, short with
    | [], _ => rfl
    | [_], _ => simp [pairUp, toNat]
    | low :: high :: digits, short => exact absurd rfl (short low high digits)

/-- The number of a list of digits, paired up in so many rounds first. -/
def pairedToNat : (rounds base : Nat) → List Nat → Nat
  | 0, base, digits => toNat base digits
  | rounds + 1, base, digits => pairedToNat rounds (base * base) (pairUp base digits)

/-- Pairing up does not change the number. -/
theorem pairedToNat_eq (rounds base : Nat) (digits : List Nat) :
    pairedToNat rounds base digits = toNat base digits := by
  induction rounds generalizing base digits with
  | zero => rfl
  | succ rounds ih => rw [pairedToNat, ih, toNat_pairUp]

/-- The number whose digits stand most significant first. Pairing up leaves some
sixteen to thirty large digits of a long list. -/
def value (base : Nat) (digits : List Nat) : Nat :=
  pairedToNat (digits.length / 16).log2 base digits.reverse

theorem value_eq (base : Nat) (digits : List Nat) :
    value base digits = toNat base digits.reverse :=
  pairedToNat_eq ..

/-- The last `width` decimal digits of a number, put before a text. -/
def lastOnto : (width n : Nat) → Text → Text
  | 0, _, behind => behind
  | width + 1, n, behind => lastOnto width (n / 10) (Nat.digitChar (n % 10) :: behind)

private theorem lastOnto_add (upper lower n : Nat) (behind : Text) :
    lastOnto (upper + lower) n behind =
      lastOnto upper (n / Nat.pow 10 lower) (lastOnto lower (n % Nat.pow 10 lower) behind) := by
  simp only [Nat.pow_eq]
  induction lower generalizing n behind with
  | zero => simp [lastOnto]
  | succ lower ih =>
    rw [← Nat.add_assoc, lastOnto, ih, lastOnto, Nat.div_div_eq_div_mul, Nat.pow_succ',
      Nat.mod_mul_right_div_self, Nat.mod_mul_right_mod]

theorem dropWhile_lastOnto_zero (width : Nat) (behind : Text) :
    (lastOnto width 0 behind).dropWhile (· = '0') = behind.dropWhile (· = '0') := by
  induction width generalizing behind with
  | zero => rfl
  | succ width ih => simp [lastOnto, ih, Nat.digitChar]

private theorem digitChar_ne_zero : ∀ n < 10, 0 < n → Nat.digitChar n ≠ '0' := by decide

/-- Enough digits of a number, without the zeros before them, are its numeral. -/
theorem dropWhile_lastOnto {width n : Nat} (pos : 0 < n) (fits : n < Nat.pow 10 width)
    (behind : Text) :
    (lastOnto width n behind).dropWhile (· = '0') = Nat.toDigits 10 n ++ behind := by
  rw [Nat.pow_eq] at fits
  induction width generalizing n behind with
  | zero => omega
  | succ width ih =>
    rw [lastOnto]
    by_cases small : n < 10
    · rw [Nat.div_eq_of_lt small, dropWhile_lastOnto_zero, Nat.mod_eq_of_lt small,
        List.dropWhile_cons_of_neg (by simpa using digitChar_ne_zero n small pos),
        Nat.toDigits_of_lt_base small]
      rfl
    · rw [ih (by omega) (by rw [Nat.pow_succ] at fits; omega),
        Nat.toDigits_of_base_le (by decide) (by omega : 10 ≤ n)]
      simp

/-- The last `16 * 2 ^ level` digits of a number, put before a text. One division
gives the two halves of them. -/
def halvedOnto : (level n : Nat) → Text → Text
  | 0, n, behind => lastOnto 16 n behind
  | level + 1, n, behind =>
    let half := Nat.pow 10 (16 * Nat.pow 2 level)
    halvedOnto level (n / half) (halvedOnto level (n % half) behind)

/-- Halving does not change the digits. -/
theorem halvedOnto_eq (level n : Nat) (behind : Text) :
    halvedOnto level n behind = lastOnto (16 * Nat.pow 2 level) n behind := by
  induction level generalizing n behind with
  | zero => rfl
  | succ level ih =>
    have doubled : 16 * Nat.pow 2 (level + 1) = 16 * Nat.pow 2 level + 16 * Nat.pow 2 level := by
      rw [Nat.pow_eq, Nat.pow_eq, Nat.pow_succ]
      omega
    rw [halvedOnto, ih, ih, ← lastOnto_add, doubled]

/-- A level that takes in all digits of a number. -/
def levelOf (n : Nat) : Nat := (n.log2 / 48).log2 + 1

theorem lt_levelOf (n : Nat) : n < Nat.pow 10 (16 * Nat.pow 2 (levelOf n)) := by
  have bits : n.log2 + 1 ≤ 3 * (16 * 2 ^ levelOf n) := by
    have := Nat.lt_log2_self (n := n.log2 / 48)
    simp only [levelOf]
    omega
  calc n < 2 ^ (n.log2 + 1) := Nat.lt_log2_self
    _ ≤ 2 ^ (3 * (16 * 2 ^ levelOf n)) := Nat.pow_le_pow_right (by decide) bits
    _ = 8 ^ (16 * 2 ^ levelOf n) := Nat.pow_mul ..
    _ ≤ 10 ^ (16 * 2 ^ levelOf n) := Nat.pow_le_pow_left (by decide) _

end SqlWire.Digits
