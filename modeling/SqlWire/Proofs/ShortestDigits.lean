import Mathlib
import SqlWire.Proofs.DoubleRounding
import SqlWire.Proofs.NumeralText

/-! The digits a double that is a whole number is printed with. They are those of a whole number
that rounds to it: of all such numbers one that ends in the most zeros, of these the nearest,
and of two equally near ones the larger. There is just one. -/
namespace SqlWire.ShortestDigits
open DoubleRounding

/-- How far a whole number lies from a double. -/
def away (x : Binary) (n : Nat) : Nat := n - whole x + (whole x - n)

/-- A number is chosen before another when it is nearer, or as near and not smaller. -/
def Before (x : Binary) (n m : Nat) : Prop := away x n < away x m ∨ away x n = away x m ∧ m ≤ n

/-- The first choice of the multiples of a number that round to a double. -/
structure FirstOf (step : Nat) (x : Binary) (n : Nat) : Prop where
  rounds : RoundsTo n x
  multiple : step ∣ n
  first : ∀ m, RoundsTo m x → step ∣ m → Before x n m

/-- The whole number that identifies a double with the fewest digits. -/
structure Shortest (x : Binary) (n : Nat) : Prop where
  rounds : RoundsTo n x
  zeros : ∀ m, RoundsTo m x → ∀ places, 10 ^ places ∣ m → 10 ^ places ∣ n
  first : ∀ m, RoundsTo m x → (∀ places, 10 ^ places ∣ n → 10 ^ places ∣ m) → Before x n m

theorem Shortest.unique (one : Shortest x n) (two : Shortest x m) : n = m := by
  have there := one.first m two.rounds (two.zeros n one.rounds)
  have back := two.first n one.rounds (one.zeros m two.rounds)
  unfold Before at there back
  omega

/-! ## Numbers that round to a double -/

/-- What lies between two numbers that round to a double rounds to it too. -/
theorem between (low : RoundsTo a x) (high : RoundsTo b x) (least : a ≤ n) (most : n ≤ b) :
    RoundsTo n x := by
  refine ⟨?_, ?_, ?_⟩
  · have := low.below
    omega
  · have := high.above
    omega
  · have := low.below
    have := high.above
    rintro (half | half)
    · exact low.tie (.inl (by omega))
    · exact high.tie (.inr (by omega))

/-- Two numbers that round to the same double are no farther apart than two doubles. -/
theorem rounds_near (one : RoundsTo n x) (two : RoundsTo m x) : n ≤ m + unit x := by
  have less := below_le x
  have := one.above
  have := two.below
  omega

/-- Multiples of a number that are nearer to each other than it is large are the same. -/
theorem multiples_apart {step n m : Nat} (one : step ∣ n) (two : step ∣ m) (below : n < m + step)
    (above : m < n + step) : n = m := by
  have less := Nat.eq_zero_of_dvd_of_lt (Nat.dvd_sub one two) (by omega)
  have more := Nat.eq_zero_of_dvd_of_lt (Nat.dvd_sub two one) (by omega)
  omega

section Rounding
variable {x : Binary} (double : IsDouble x)
include double

/-- A quarter of the distance to the next double above. -/
theorem unit_quarters : unit x = 4 * 2 ^ (x.exponent - 2).toNat := by
  have low := double.low
  have places : x.exponent.toNat = (x.exponent - 2).toNat + 2 := by omega
  rw [unit, places, Nat.pow_add, Nat.mul_comm]

private theorem below_positive : 0 < unitBelow x := by
  have quarters := unit_quarters double
  have solid := Nat.two_pow_pos (x.exponent - 2).toNat
  unfold unitBelow
  split <;> omega

private theorem whole_bounds : 2 ^ 52 * unit x ≤ whole x ∧ whole x < 2 ^ 53 * unit x := by
  have solid := unit_positive x
  exact ⟨Nat.mul_le_mul_right _ double.least, Nat.mul_lt_mul_of_pos_right double.most solid⟩

/-- A double rounds to itself. -/
theorem whole_rounds : RoundsTo (whole x) x := by
  have solid := below_positive double
  have above := unit_positive x
  exact ⟨by omega, by omega, fun half => by omega⟩

theorem rounds_positive (rounds : RoundsTo n x) : 0 < n := by
  obtain ⟨least, -⟩ := whole_bounds double
  have less := below_le x
  have solid := unit_positive x
  have := rounds.below
  omega

/-! ## Multiples of a power of ten -/

private theorem scale_quarters (places : Nat) :
    x.commonScale places = ⟨2 ^ (x.exponent - 2).toNat, 10 ^ places⟩ := by
  have low := double.low
  have none : (-(x.exponent - 2)).toNat = 0 := by omega
  have down : (-(places : Int)).toNat = 0 := by omega
  unfold Binary.commonScale
  dsimp only
  rw [none, down, Int.toNat_natCast]
  simp only [Nat.pow_eq, Nat.pow_zero, Nat.mul_one]

/-- The points of a grid that identify a double are those that round to it. -/
theorem identified_iff (places c : Nat) :
    x.identifiedBy places c = true ↔ RoundsTo (c * 10 ^ places) x := by
  have quarters := unit_quarters double
  have solid : 0 < 2 ^ (x.exponent - 2).toNat := Nat.two_pow_pos _
  have number : whole x = 4 * (x.mantissa * 2 ^ (x.exponent - 2).toNat) := by
    rw [whole, quarters, Nat.mul_left_comm]
  have high : (4 * x.mantissa + 2) * 2 ^ (x.exponent - 2).toNat =
      whole x + 2 * 2 ^ (x.exponent - 2).toNat := by
    rw [Nat.add_mul, Nat.mul_assoc, number]
  have low : 2 * ((4 * x.mantissa - if x.narrowBelow then 1 else 2) *
      2 ^ (x.exponent - 2).toNat) + unitBelow x = 2 * whole x := by
    have least := Nat.mul_le_mul_right (2 ^ (x.exponent - 2).toNat) double.least
    rw [Nat.sub_mul, Nat.mul_assoc, ← number, unitBelow, quarters]
    split <;> omega
  unfold Binary.identifiedBy
  rw [scale_quarters double]
  dsimp only
  rw [high]
  generalize (4 * x.mantissa - if x.narrowBelow then 1 else 2) *
    2 ^ (x.exponent - 2).toNat = least at low ⊢
  split
  next even =>
    simp only [Bool.and_eq_true, decide_eq_true_eq]
    constructor
    · rintro ⟨below, above⟩
      exact ⟨by omega, by omega, fun _ => even⟩
    · rintro ⟨below, above, -⟩
      omega
  next odd =>
    simp only [Bool.and_eq_true, decide_eq_true_eq]
    constructor
    · rintro ⟨below, above⟩
      exact ⟨by omega, by omega, by omega⟩
    · rintro ⟨below, above, tie⟩
      omega

/-- The number in quarters of its unit is the whole number. -/
theorem number_quarters : 4 * x.mantissa * 2 ^ (x.exponent - 2).toNat = whole x := by
  rw [whole, unit_quarters double, Nat.mul_assoc, Nat.mul_left_comm]

/-- When a multiple rounds to a double, one of its two neighbours does. -/
theorem neighbour_rounds (solid : 0 < step) (rounds : RoundsTo m x) (multiple : step ∣ m) :
    m ≤ whole x / step * step ∧ RoundsTo (whole x / step * step) x ∨
      (whole x / step + 1) * step ≤ m ∧ RoundsTo ((whole x / step + 1) * step) x := by
  have self := whole_rounds double
  have floor := Nat.div_mul_le_self (whole x) step
  have ceiling := Nat.lt_mul_of_div_lt (Nat.lt_add_one (whole x / step)) solid
  obtain ⟨c, rfl⟩ := multiple
  by_cases low : step * c ≤ whole x
  · have less : c ≤ whole x / step := (Nat.le_div_iff_mul_le solid).mpr (by rwa [Nat.mul_comm])
    have less := Nat.mul_le_mul_right step less
    rw [Nat.mul_comm c] at less
    exact .inl ⟨less, between rounds self less floor⟩
  · have more : whole x / step + 1 ≤ c := Nat.div_lt_of_lt_mul (Nat.not_le.mp low)
    have more := Nat.mul_le_mul_right step more
    rw [Nat.mul_comm c] at more
    exact .inr ⟨more, between self rounds ceiling.le more⟩

/-- What is chosen before the two neighbours is chosen before all multiples. -/
theorem first_of_neighbours (solid : 0 < step) (rounds : RoundsTo n x) (multiple : step ∣ n)
    (low : RoundsTo (whole x / step * step) x → Before x n (whole x / step * step))
    (high : RoundsTo ((whole x / step + 1) * step) x →
      Before x n ((whole x / step + 1) * step)) : FirstOf step x n := by
  have floor := Nat.div_mul_le_self (whole x) step
  have ceiling := Nat.lt_mul_of_div_lt (Nat.lt_add_one (whole x / step)) solid
  refine ⟨rounds, multiple, fun m other divides => ?_⟩
  unfold Before away at low high ⊢
  rcases neighbour_rounds double solid other divides with ⟨least, near⟩ | ⟨most, near⟩
  · have before := low near
    omega
  · have before := high near
    omega

/-- A grid has no point for a double just where no multiple rounds to it, and otherwise its
point is the first choice of them. -/
theorem grid_chosen (places : Nat) :
    (x.onGrid .up places = none ∧ ∀ m, RoundsTo m x → ¬ 10 ^ places ∣ m) ∨
      ∃ c, x.onGrid .up places = some ⟨c, places⟩ ∧
        FirstOf (10 ^ places) x (c * 10 ^ places) := by
  have solid : 0 < 10 ^ places := Nat.pow_pos (by decide)
  have low := identified_iff double places (whole x / 10 ^ places)
  have high := identified_iff double places (whole x / 10 ^ places + 1)
  have floor := Nat.div_mul_le_self (whole x) (10 ^ places)
  have ceiling := Nat.lt_mul_of_div_lt (Nat.lt_add_one (whole x / 10 ^ places)) solid
  have middle : (2 * (whole x / 10 ^ places) + 1) * 10 ^ places =
      whole x / 10 ^ places * 10 ^ places + (whole x / 10 ^ places + 1) * 10 ^ places := by
    rw [← Nat.add_mul, Nat.two_mul, Nat.add_assoc]
  have twice : 8 * x.mantissa * 2 ^ (x.exponent - 2).toNat = 2 * whole x := by
    rw [← number_quarters double, ← Nat.mul_assoc, ← Nat.mul_assoc]
  have first := @first_of_neighbours x double
  unfold Binary.onGrid
  rw [scale_quarters double]
  dsimp only
  rw [number_quarters double, twice, middle]
  unfold Before away at first
  cases below : x.identifiedBy places (whole x / 10 ^ places) with
  | false =>
    rw [below] at low
    cases above : x.identifiedBy places (whole x / 10 ^ places + 1) with
    | false =>
      rw [above] at high
      refine .inl ⟨rfl, fun m rounds divides => ?_⟩
      rcases neighbour_rounds double solid rounds divides with ⟨-, near⟩ | ⟨-, near⟩
      · exact Bool.false_ne_true (low.mpr near)
      · exact Bool.false_ne_true (high.mpr near)
    | true =>
      rw [above] at high
      refine .inr ⟨_, rfl, first solid (high.mp rfl) (Nat.dvd_mul_left ..) ?_ ?_⟩
      · exact fun near => absurd (low.mpr near) Bool.false_ne_true
      · omega
  | true =>
    rw [below] at low
    cases above : x.identifiedBy places (whole x / 10 ^ places + 1) with
    | false =>
      rw [above] at high
      refine .inr ⟨_, rfl, first solid (low.mp rfl) (Nat.dvd_mul_left ..) ?_ ?_⟩
      · omega
      · exact fun near => absurd (high.mpr near) Bool.false_ne_true
    | true =>
      rw [above] at high
      dsimp only
      split
      next side =>
        rw [Nat.compare_eq_lt] at side
        refine .inr ⟨_, rfl, first solid (low.mp rfl) (Nat.dvd_mul_left ..) ?_ ?_⟩ <;> omega
      next side =>
        rw [Nat.compare_eq_gt] at side
        refine .inr ⟨_, rfl, first solid (high.mp rfl) (Nat.dvd_mul_left ..) ?_ ?_⟩ <;> omega
      next side =>
        rw [Nat.compare_eq_eq] at side
        refine .inr ⟨_, rfl, first solid (high.mp rfl) (Nat.dvd_mul_left ..) ?_ ?_⟩ <;> omega

/-! ## From coarse to fine -/

/-- The multiples of a step that leaves seventeen digits lie closer than doubles, so that one of
them rounds to the double. -/
theorem fine_enough (solid : 0 < step) (fine : 10 ^ 16 * step ≤ whole x) :
    ∃ m, RoundsTo m x ∧ step ∣ m := by
  obtain ⟨-, most⟩ := whole_bounds double
  have below := below_positive double
  have floor := Nat.div_mul_le_self (whole x) step
  have ceiling := Nat.lt_mul_of_div_lt (Nat.lt_add_one (whole x / step)) solid
  have next : (whole x / step + 1) * step = whole x / step * step + step := Nat.succ_mul ..
  have above := unit_positive x
  by_cases near : 2 * whole x < 2 * (whole x / step * step) + unitBelow x
  · exact ⟨_, ⟨near.le, by omega, by omega⟩, Nat.dvd_mul_left ..⟩
  · have close : 2 * ((whole x / step + 1) * step) < 2 * whole x + unit x := by
      cases narrow : x.narrowBelow with
      | false =>
        have same : unitBelow x = unit x := by rw [unitBelow, narrow, if_neg Bool.false_ne_true]
        omega
      | true =>
        have power : x.mantissa = 2 ^ 52 := by simpa [narrow] using double.narrow
        have number : whole x = 2 ^ 52 * unit x := by rw [whole, power]
        omega
    exact ⟨_, ⟨by omega, close.le, by omega⟩, Nat.dvd_mul_left ..⟩

/-- How many digits the double has. -/
theorem scale_digits : x.decimalScale = (Numeral.ofNat (whole x)).length := by
  have low := double.low
  have none : (-x.exponent).toNat = 0 := by omega
  obtain ⟨least, -⟩ := whole_bounds double
  have above := unit_positive x
  have number : x.mantissa * Nat.pow 2 x.exponent.toNat = whole x := rfl
  unfold Binary.decimalScale
  dsimp only
  rw [none, number, Nat.pow_eq, Nat.pow_zero, if_pos (by omega), Nat.div_one, Binary.digitCount,
    if_neg (by omega), Numeral.ofNat_eq]

private theorem many_digits : 17 ≤ (Numeral.ofNat (whole x)).length := by
  obtain ⟨least, -⟩ := whole_bounds double
  have quarters := unit_quarters double
  have solid := Nat.two_pow_pos (x.exponent - 2).toNat
  by_contra few
  have less := (NumeralText.numeral_length (n := whole x) (by decide : 0 < 16)).mp (by omega)
  omega

/-- A first choice with no coarser multiple that rounds to the double is the shortest. -/
theorem shortest_of_first {places : Nat}
    (inside : places < (Numeral.ofNat (whole x)).length)
    (first : FirstOf (10 ^ places) x n)
    (coarser : ∀ more, places < more → more < (Numeral.ofNat (whole x)).length →
      ∀ m, RoundsTo m x → ¬ 10 ^ more ∣ m) : Shortest x n := by
  have many := many_digits double
  obtain ⟨low, high⟩ := NumeralText.numeral_bounds (whole x) (by omega)
  obtain ⟨least, -⟩ := whole_bounds double
  have above := unit_positive x
  refine ⟨first.rounds, fun m rounds more divides => ?_,
    fun m rounds divides => first.first m rounds (divides places first.multiple)⟩
  rcases Nat.lt_or_ge places more with deep | shallow
  · rcases Nat.lt_or_ge more (Numeral.ofNat (whole x)).length with short | long
    · exact absurd divides (coarser more deep short m rounds)
    · -- numbers with more zeros than the double has digits lie on the coarsest grid, where no
      -- two points are as near as numbers that round to one double
      have coarse : 10 ^ ((Numeral.ofNat (whole x)).length - 1) ∣ m :=
        (Nat.pow_dvd_pow 10 (by omega)).trans divides
      by_cases coarsest : places < (Numeral.ofNat (whole x)).length - 1
      · exact absurd coarse (coarser _ coarsest (by omega) m rounds)
      · have last : places = (Numeral.ofNat (whole x)).length - 1 := by omega
        have length : (Numeral.ofNat (whole x)).length = places + 1 := by omega
        rw [← last] at coarse low
        rw [length, Nat.pow_succ] at high
        have near := rounds_near rounds first.rounds
        have near' := rounds_near first.rounds rounds
        rwa [multiples_apart first.multiple coarse (by omega) (by omega)]
  · exact (Nat.pow_dvd_pow 10 shallow).trans first.multiple

end Rounding

/-- A search finds what comes first. -/
theorem found_first (f : Nat → Option α) (count : Nat) :
    (∀ i < count, f i = none) ∧ (List.range count).findSome? f = none ∨
      ∃ i < count, (∀ j < i, f j = none) ∧ (f i).isSome ∧
        (List.range count).findSome? f = f i := by
  induction count with
  | zero => exact .inl ⟨fun i less => absurd less (Nat.not_lt_zero i), rfl⟩
  | succ count ih =>
    rw [List.range_succ, List.findSome?_append]
    rcases ih with ⟨before, nothing⟩ | ⟨i, less, before, some, found⟩
    · rw [nothing, Option.none_or, List.findSome?_singleton]
      cases last : f count with
      | none =>
        refine .inl ⟨fun i less => ?_, rfl⟩
        rcases Nat.lt_succ_iff_lt_or_eq.mp less with earlier | rfl
        · exact before i earlier
        · exact last
      | some found =>
        exact .inr ⟨count, Nat.lt_succ_self count, before, by rw [last]; rfl, last.symm⟩
    · rw [found, Option.or_of_isSome some]
      exact .inr ⟨i, Nat.lt_succ_of_lt less, before, some, rfl⟩

/-- The digits a double is printed with are those of the shortest number that rounds to it, with
their zeros taken off. -/
theorem shortest_chosen (double : IsDouble x) :
    ∃ c places : Nat, x.shortest .up = Scientific.stripZeros c places ∧
      Shortest x (c * 10 ^ places) := by
  have many := many_digits double
  obtain ⟨low, -⟩ := NumeralText.numeral_bounds (whole x) (by omega)
  have length := scale_digits double
  obtain ⟨k, digits⟩ : ∃ k, (Numeral.ofNat (whole x)).length = k := ⟨_, rfl⟩
  rw [digits] at many low length
  have grid : ∀ i < 17, (k : Int) - ((i : Nat) + 1) = ((k - (i + 1) : Nat) : Int) := by omega
  -- a grid before the first with a point has no multiple that rounds to the double
  have empty : ∀ i < 17, x.onGrid .up (k - ((i : Nat) + 1)) = none →
      ∀ m, RoundsTo m x → ¬ 10 ^ (k - (i + 1)) ∣ m := by
    intro i less none
    rw [grid i less] at none
    rcases grid_chosen double (k - (i + 1)) with ⟨-, never⟩ | ⟨c, some, -⟩
    · exact never
    · rw [none] at some
      cases some
  unfold Binary.shortest
  dsimp only
  rw [length]
  rcases found_first (fun n : Nat => x.onGrid .up (k - (n + 1))) 17 with
    ⟨before, -⟩ | ⟨i, less, before, some, found⟩
  · have fine : 10 ^ 16 * 10 ^ (k - 17) ≤ whole x := by
      rwa [← Nat.pow_add, (by omega : 16 + (k - 17) = k - 1)]
    obtain ⟨m, rounds, divides⟩ := fine_enough double (Nat.pow_pos (by decide)) fine
    exact absurd divides (empty 16 (by decide) (before 16 (by decide)) m rounds)
  · rw [found]
    rw [grid i less] at some ⊢
    rcases grid_chosen double (k - (i + 1)) with ⟨none, -⟩ | ⟨c, chosen, first⟩
    · rw [none] at some
      cases some
    · rw [chosen]
      refine ⟨c, k - (i + 1), rfl,
        shortest_of_first double (by omega) first fun more deep short => ?_⟩
      have earlier := empty (k - 1 - more) (by omega) (before _ (by omega))
      rwa [(by omega : k - (k - 1 - more + 1) = more)] at earlier

/-! ## The text -/

/-- Zeros that move into the exponent stay in the number. -/
theorem strip_number (digits places : Nat) :
    ∃ more : Nat, (Scientific.stripZeros digits places).exponent = more ∧
      (Scientific.stripZeros digits places).digits * 10 ^ more = digits * 10 ^ places := by
  induction digits using Nat.strong_induction_on generalizing places with
  | _ digits ih =>
    rw [Scientific.stripZeros]
    split
    next zero =>
      obtain ⟨more, exponent, number⟩ := ih (digits / 10) (by omega) (places + 1)
      refine ⟨more, exponent, number.trans ?_⟩
      rw [Nat.pow_succ, Nat.mul_comm (10 ^ places), ← Nat.mul_assoc,
        Nat.div_mul_cancel (Nat.dvd_of_mod_eq_zero zero.2)]
    next => exact ⟨places, rfl, rfl⟩

private theorem numeral_scaled (some : 0 < n) (places : Nat) :
    Numeral.ofNat (n * 10 ^ places) = Numeral.ofNat n ++ List.replicate places '0' := by
  induction places with
  | zero => rw [Nat.pow_zero, Nat.mul_one, List.replicate_zero, List.append_nil]
  | succ places ih =>
    have solid := Nat.mul_pos some (Nat.pow_pos (n := places) (by decide : 0 < 10))
    rw [Nat.pow_succ, ← Nat.mul_assoc, List.replicate_succ', ← List.append_assoc, ← ih,
      Numeral.ofNat_eq, Numeral.ofNat_eq, Nat.toDigits_of_base_le (by decide) (by omega),
      Nat.mul_div_cancel _ (by decide), Nat.mul_mod_left]
    rfl

/-- A whole number in plain notation is its numeral. -/
theorem positional_whole (some : 0 < digits) (places : Nat) :
    FloatText.positional ⟨digits, places⟩ = Numeral.ofNat (digits * 10 ^ places) := by
  have long := List.length_pos_iff.mpr (NumeralText.numeral_not_empty digits)
  have zeros : (((Numeral.ofNat digits).length : Int) + places -
      (Numeral.ofNat digits).length).toNat = places := by omega
  unfold FloatText.positional
  dsimp only
  rw [if_neg (by omega), if_pos (by omega), zeros, numeral_scaled some, Text.repeated]

/-- The printed form of a whole double is the numeral of its shortest number. -/
theorem whole_printed (double : IsDouble x) :
    ∃ n, Shortest x n ∧ FloatText.positional (x.shortest .up) = Numeral.ofNat n := by
  obtain ⟨c, places, same, shortest⟩ := shortest_chosen double
  obtain ⟨more, exponent, number⟩ := strip_number c places
  refine ⟨_, shortest, ?_⟩
  rw [same]
  have positive := rounds_positive double shortest.rounds
  rw [← number] at positive ⊢
  generalize Scientific.stripZeros c places = stripped at exponent positive
  obtain ⟨digits, ten⟩ := stripped
  dsimp only at exponent positive ⊢
  rw [exponent, positional_whole (Nat.pos_of_mul_pos_right positive)]

end SqlWire.ShortestDigits
