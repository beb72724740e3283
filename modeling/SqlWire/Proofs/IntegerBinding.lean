import Mathlib
import SqlWire.CommandLine.Run
import SqlWire.Proofs.Rendering
import SqlWire.Proofs.ScriptBinding
import SqlWire.Proofs.ShortestDigits

/-! Integers that are bound on the command line. One of sixty-four bits is bound as it is. What is
larger is read as the double it rounds to, and what is printed of that is the shortest number
that rounds to it, or the word for an infinite one. -/
namespace SqlWire.IntegerBinding
open NumeralText FloatText Rendering DoubleRounding ShortestDigits

/-! ## Digits that are read as a double -/

/-- No double is as large as a number of more than four hundred digits. -/
theorem many_overflow (many : 400 < (Numeral.ofNat n).length) : overflow ≤ n := by
  obtain ⟨least, -⟩ := numeral_bounds n (by omega)
  obtain ⟨k, zeros⟩ : ∃ k, (Numeral.ofNat n).length - 1 = k := ⟨_, rfl⟩
  rw [zeros] at least
  have bits : 2 ^ (3 * k) ≤ 10 ^ k := by
    rw [Nat.pow_mul]
    exact Nat.pow_le_pow_left (by decide) k
  have large : 2 ^ 54 * halfUnit ≤ 2 ^ (3 * k) := half_below (by omega)
  rw [overflow]
  omega

private theorem few_kept (few : digits.length ≤ enoughDigits) : shorten digits = digits := by
  rw [shorten, List.take_of_length_le few, List.drop_eq_nil_of_le few]
  exact List.append_nil digits

private theorem quotient_one (n : Nat) :
    nearestQuotient (n * Nat.pow 10 0) (Nat.pow 10 0) = Float.ofNat n := by
  unfold nearestQuotient
  simp [Nat.mod_one]

/-- Digits are read as the number they are, or as infinite when there are too many. -/
theorem digits_nearest (numeric : AllDigits digits) (positive : 0 < Numeral.value digits) :
    nearestDouble digits 0 = Float.ofNat (Numeral.value digits) ∨
      nearestDouble digits 0 = 1.0 / 0.0 ∧ overflow ≤ Numeral.value digits := by
  have some : (Numeral.ofNat (Numeral.value digits)).isEmpty = false :=
    List.isEmpty_eq_false_iff.mpr (numeral_not_empty _)
  unfold nearestDouble
  dsimp only
  rw [zeros_dropped numeric positive, some, Bool.false_or, Int.add_zero]
  rw [if_neg (by simp)]
  by_cases many : 400 < (Numeral.ofNat (Numeral.value digits)).length
  · rw [if_pos (by omega)]
    exact .inr ⟨rfl, many_overflow many⟩
  · have kept := few_kept (by rw [enoughDigits]; omega :
      (Numeral.ofNat (Numeral.value digits)).length ≤ enoughDigits)
    rw [if_neg (by omega), kept, value_numeral, Int.sub_self]
    refine .inl ?_
    split
    · rfl
    · exact quotient_one _

private theorem magnitude_read (filled : digits ≠ []) (numeric : AllDigits digits) :
    readMagnitude? digits = some (nearestDouble digits 0) := by
  have spans : spanDigits digits = (digits, []) := by
    rw [spanDigits, List.span_eq_takeWhile_dropWhile, List.takeWhile_eq_self_iff.mpr numeric,
      List.dropWhile_eq_nil_iff.mpr numeric]
  have some : digits.isEmpty = false := List.isEmpty_eq_false_iff.mpr filled
  unfold readMagnitude?
  rw [spans]
  simp [some, readExponent?]

/-- A sign before digits, or none, is the sign of the double. -/
theorem numeral_read (sign : Sign) (filled : digits ≠ []) (numeric : AllDigits digits) :
    readNumeral? (sign.text ++ digits) =
      some (withSign (sign == .minus) (nearestDouble digits 0)) := by
  have read := magnitude_read filled numeric
  cases sign with
  | absent =>
    obtain ⟨c, digits, rfl⟩ := List.exists_cons_of_ne_nil filled
    have digit := numeric c List.mem_cons_self
    change readNumeral? (c :: digits) = _
    unfold readNumeral?
    split
    next same =>
      cases same
      cases digit
    next same =>
      cases same
      cases digit
    next => exact read
  | plus => exact read
  | minus =>
    change (readMagnitude? digits).map (-·) = _
    rw [read]
    rfl

/-! ## Literals -/

/-- The integers of sixty-four bits. -/
def Fits (n : Int) : Prop := -2 ^ 63 ≤ n ∧ n < 2 ^ 63

/-- The literals that integers are bound as. -/
inductive BoundAs (n : Int) : Text → Prop where
  | same (fits : Fits n) : BoundAs n (Numeral.ofInt n)
  | rounded (wide : ¬ Fits n) (double : IsDouble x) (rounds : RoundsTo n.natAbs x)
      (shortest : Shortest x m) : BoundAs n (Numeral.ofInt (n.sign * m))
  | infinite (wide : overflow ≤ n.natAbs) : BoundAs n (signed (n < 0) "inf".toList)

/-- The integers that are bound as they are: those of sixty-four bits, and those that are the
shortest number that rounds to the double they round to. -/
def Kept (n : Int) : Prop :=
  Fits n ∨ ∃ x, IsDouble x ∧ RoundsTo n.natAbs x ∧ Shortest x n.natAbs

private theorem large_bits (large : 2 ^ 63 ≤ n) : 54 ≤ n.log2 := by
  rw [Nat.le_log2 (by omega)]
  omega

private theorem digits_double (numeric : AllDigits digits) (wide : 2 ^ 63 ≤ Numeral.value digits)
    (negative : Bool) :
    ofDouble (withSign negative (nearestDouble digits 0)) =
      ⟨negative, magnitude (Numeral.value digits)⟩ := by
  have bits := large_bits wide
  rcases digits_nearest numeric (by omega) with finite | ⟨infinite, much⟩
  · rw [finite, natural_read bits]
  · rw [infinite, infinite_signed, magnitude, if_neg (Nat.not_lt.mpr much)]

private theorem minus_negative (sign : Sign) {size : Nat} (positive : 0 < size) :
    (sign == .minus) = decide (sign.factor * (size : Int) < 0) := by
  cases sign with
  | absent => exact (decide_eq_false (by simp [Sign.factor])).symm
  | plus => exact (decide_eq_false (by simp [Sign.factor])).symm
  | minus => exact (decide_eq_true (by simp [Sign.factor, positive])).symm

private theorem signed_numeral {n : Int} {m : Nat} (some : n ≠ 0) (positive : 0 < m) :
    signed (n < 0) (Numeral.ofNat m) = Numeral.ofInt (n.sign * m) := by
  unfold signed Numeral.ofInt
  rcases Int.lt_trichotomy n 0 with negative | zero | positive'
  · have sign : n.sign * m = -(m : Int) := by
      rw [Int.sign_eq_neg_one_of_neg negative, Int.neg_one_mul]
    rw [sign, if_pos (decide_eq_true negative), if_pos (by omega), Int.natAbs_neg,
      Int.natAbs_natCast]
  · exact absurd zero some
  · have sign : n.sign * m = m := by rw [Int.sign_eq_one_of_pos positive', Int.one_mul]
    rw [sign, if_neg (by simpa using positive'.le), if_neg (by omega), Int.natAbs_natCast]

/-- What is too large for sixty-four bits is bound as the double it rounds to. -/
theorem wide_literal (sign : Sign) (numeric : AllDigits digits)
    (wide : ¬ Fits (sign.factor * Numeral.value digits)) :
    BoundAs (sign.factor * Numeral.value digits)
      (literal (withSign (sign == .minus) (nearestDouble digits 0))) := by
  have abs := signed_magnitude sign (Numeral.value digits)
  have large : 2 ^ 63 ≤ Numeral.value digits := by
    unfold Fits at wide
    omega
  have bits := large_bits large
  have positive : 0 < Numeral.value digits := by omega
  unfold literal double plain
  rw [digits_double numeric large, minus_negative sign positive]
  generalize Numeral.value digits = v at *
  generalize sign.factor * v = n at *
  subst abs
  unfold magnitude
  by_cases less : n.natAbs < overflow
  · have double := nearest_double bits less
    obtain ⟨m, shortest, printed⟩ := whole_printed double
    rw [if_pos less]
    dsimp only
    rw [printed, signed_numeral (by omega) (rounds_positive double shortest.rounds)]
    exact .rounded wide double (nearest_rounds (by omega)) shortest
  · rw [if_neg less]
    exact .infinite (Nat.not_lt.mp less)

/-- No word is inferred to be a decimal or an array, so each has a literal. -/
theorem inferred_rendered (word : Text) :
    (Param.infer word).render? = some (literalOf (Param.infer word)) := by
  refine (rendered_iff _ _).mpr ⟨scalar_not_deep fun d inside => ?_, rfl⟩
  generalize inferred : Param.infer word = value at inside
  unfold Param.infer at inferred
  repeat' split at inferred
  all_goals
    subst inferred
    cases inside

private theorem bound_as (writes : Writes word n) : BoundAs n (literalOf (Param.infer word)) := by
  unfold Param.infer
  cases reads : Numeral.readInt64 word with
  | ok m =>
    obtain rfl := writes_unique writes ((read_int64_iff m).mp reads)
    exact .same ⟨m.le_toInt, m.toInt_lt⟩
  | error fault =>
    have wide : ¬ Fits n := fun fits => by
      have kept : (Int64.ofInt n).toInt = n := Int64.toInt_ofInt_of_le fits.1 fits.2
      rw [(read_int64_iff (Int64.ofInt n)).mpr (by rwa [kept])] at reads
      cases reads
    obtain ⟨sign, digits, rfl, filled, numeric, rfl⟩ := writes
    have digit : (sign.text ++ digits).any Char.isDigit = true := by
      obtain ⟨c, digits, rfl⟩ := List.exists_cons_of_ne_nil filled
      exact List.any_eq_true.mpr ⟨c, by simp, numeric c List.mem_cons_self⟩
    dsimp only
    rw [if_pos digit, numeral_read sign filled numeric]
    exact wide_literal sign numeric wide

private theorem word_unwritten (negative : Bool) : ¬ Writes (signed negative "inf".toList) n := by
  rintro ⟨sign, digits, same, -, numeric, -⟩
  have letter : 'f' ∈ sign.text ++ digits := by
    rw [← same]
    cases negative <;> decide
  rcases List.mem_append.mp letter with mark | digit
  · cases sign <;> simp [Sign.text] at mark
  · cases numeric 'f' digit

/-- An integer stays the same just where it is bound as it is. -/
theorem bound_kept {text : Text} (bound : BoundAs n text) : Writes text n ↔ Kept n := by
  cases bound with
  | same fits => exact iff_of_true (numeral_writes n) (.inl fits)
  | @rounded x m wide double rounds shortest =>
    have some : n ≠ 0 := by
      rintro rfl
      exact wide ⟨by decide, by decide⟩
    constructor
    · intro writes
      have same := congrArg Int.natAbs (writes_unique (numeral_writes (n.sign * m)) writes)
      rw [Int.natAbs_mul, Int.natAbs_sign_of_ne_zero some, Nat.one_mul, Int.natAbs_natCast] at same
      rw [same] at shortest
      exact .inr ⟨x, double, rounds, shortest⟩
    · rintro (fits | ⟨y, double', rounds', shortest'⟩)
      · exact absurd fits wide
      · obtain rfl := rounds_unique double double' rounds rounds'
        obtain rfl := shortest.unique shortest'
        have same : n.sign * (n.natAbs : Int) = n := Int.sign_mul_natAbs n
        rw [same]
        exact numeral_writes n
  | infinite wide =>
    refine iff_of_false (word_unwritten _) ?_
    rintro (fits | ⟨x, double, rounds, -⟩)
    · have large : 2 ^ 64 ≤ 2 ^ 0 * halfUnit := half_above (by omega)
      unfold Fits at fits
      unfold overflow at wide
      omega
    · have less := rounds_below double rounds
      omega

/-! ## The command -/

private theorem words_rendered (words : List Text) :
    ∃ rendered, Param.renderAll? (words.map Param.infer) = some rendered ∧
      rendered.length = words.length ∧
      ∀ i : Nat, rendered[i]? = words[i]?.bind fun word => (Param.infer word).render? := by
  refine ⟨(words.map Param.infer).map literalOf, rendered_all_iff.mpr ⟨?_, rfl⟩, by simp, ?_⟩
  · intro value member
    obtain ⟨word, -, rfl⟩ := List.mem_map.mp member
    exact ((rendered_iff _ _).mp (inferred_rendered word)).1
  · intro i
    rw [List.map_map, List.getElem?_map]
    cases words[i]? with
    | none => rfl
    | some word => exact (inferred_rendered word).symm

/-- Words are bound for the markers of a script in their order: each literal that stands in the
text of a statement is that of the word with the marker's number. -/
theorem words_placed (ok : Script.split sql = .ok script)
    (count : words.length = script.totalMarkers) :
    ∃ texts, CommandLine.bindWords? sql words = some (.ok texts) ∧
      texts.length = script.statements.length ∧
      ∀ i statement text, script.statements[i]? = some statement → texts[i]? = some text →
        ∃ literals, ScriptBinding.Filled 0 statement.clean statement.markers literals text ∧
          literals.length = statement.markerCount ∧
          ∀ j < statement.markerCount, literals[j]? =
            words[(Script.mk (script.statements.take i)).totalMarkers + j]?.bind
              fun word => (Param.infer word).render? := by
  obtain ⟨rendered, all, width, placed⟩ := words_rendered words
  have size := Substitution.numbered_size 1 rendered
  have found := Substitution.numbered_get 1 rendered
  rw [width, count] at size
  rcases ScriptBinding.bind_all_cases ok (Bindings.numberedFrom 1 rendered) with
    ⟨texts, served, -, bound⟩ | ⟨differs, -⟩ | ⟨id, least, most, unbound, -⟩
  · obtain ⟨lengths, each⟩ := ScriptBinding.bound_each bound
    refine ⟨texts, ?_, lengths, fun i statement text here there => ?_⟩
    · simp only [CommandLine.bindWords?, ok, all, Option.map_some, served, Except.mapError]
    · obtain ⟨literals, filled, width, same⟩ := each i statement text here there
      refine ⟨literals, filled, width, fun j less => ?_⟩
      rw [same j less, Nat.zero_add, Nat.add_comm _ 1, found, placed]
  · exact absurd size differs
  · have some := found (id - 1)
    rw [Nat.add_sub_cancel' (by omega), unbound, List.getElem?_eq_getElem (by omega)] at some
    cases some

/-- The command puts a literal for each word in the place of its marker. For a word that is an
integer, of any length, that literal is the integer when it has sixty-four bits; the shortest
number that rounds to the same double when it is larger; and the word for an infinite number when
it rounds to no double. So the integer is changed unless it has sixty-four bits or is itself the
shortest of the numbers that round to a double. -/
theorem integers_bind (ok : Script.split sql = .ok script)
    (count : words.length = script.totalMarkers) :
    (∃ texts, CommandLine.bindWords? sql words = some (.ok texts) ∧
      texts.length = script.statements.length ∧
      ∀ i statement text, script.statements[i]? = some statement → texts[i]? = some text →
        ∃ literals, ScriptBinding.Filled 0 statement.clean statement.markers literals text ∧
          literals.length = statement.markerCount ∧
          ∀ j < statement.markerCount, literals[j]? =
            words[(Script.mk (script.statements.take i)).totalMarkers + j]?.bind
              fun word => (Param.infer word).render?) ∧
    ∀ word n, Writes word n → ∃ literal, (Param.infer word).render? = some literal ∧
      BoundAs n literal ∧ (Writes literal n ↔ Kept n) := by
  refine ⟨words_placed ok count, fun word n writes => ?_⟩
  have bound := bound_as writes
  exact ⟨_, inferred_rendered word, bound, bound_kept bound⟩

/-- Beyond the precision of doubles, an integer of sixty-four bits is bound as it is, and so is a
larger one that is the shortest number of its double. -/
theorem large_integers_bind :
    let sql := "SELECT ?, ?".toList
    let words := ["-9007199254740993".toList, "+20000000000000000000".toList]
    CommandLine.bindWords? sql words =
        some (.ok ["SELECT -9007199254740993, 20000000000000000000".toList]) ∧
      BoundAs (-9007199254740993) "-9007199254740993".toList ∧ Kept 20000000000000000000 := by
  intro sql words
  have ok : Script.split sql = .ok ⟨[⟨sql, sql, 0, 11, [⟨1, 7⟩, ⟨2, 10⟩], .query none none⟩]⟩ := by
    decide +kernel
  have small : Writes "-9007199254740993".toList (-9007199254740993) :=
    ⟨.minus, "9007199254740993".toList, rfl, by decide, List.all_eq_true.mp rfl, by decide +kernel⟩
  have large : Writes "+20000000000000000000".toList 20000000000000000000 :=
    ⟨.plus, "20000000000000000000".toList, rfl, by decide, List.all_eq_true.mp rfl,
      by decide +kernel⟩
  have kept : (Param.infer "-9007199254740993".toList).render? =
      some "-9007199254740993".toList := by
    decide +kernel
  have same : (Param.infer "+20000000000000000000".toList).render? =
      some (Numeral.ofInt 20000000000000000000) := by
    decide +kernel
  obtain ⟨-, bound⟩ := integers_bind ok (by decide : words.length = _)
  refine ⟨by decide +kernel, ?_, ?_⟩
  · obtain ⟨literal, rendered, bound, -⟩ := bound _ _ small
    cases kept.symm.trans rendered
    exact bound
  · obtain ⟨literal, rendered, -, iff⟩ := bound _ _ large
    cases same.symm.trans rendered
    exact iff.mp (numeral_writes _)

/-- An identifier of sixty-four bits without a sign is changed. -/
theorem unsigned_identifier_changes :
    let changed := "18446744073709552000".toList
    Writes "18446744073709551615".toList 18446744073709551615 ∧
      CommandLine.bindWords? "SELECT ?".toList ["18446744073709551615".toList] =
        some (.ok ["SELECT 18446744073709552000".toList]) ∧
      (Param.infer "18446744073709551615".toList).render? = some changed ∧
      ¬ Writes changed 18446744073709551615 := by
  intro changed
  have printed : changed = Numeral.ofInt 18446744073709552000 := by decide +kernel
  refine ⟨⟨.absent, "18446744073709551615".toList, rfl, by decide, List.all_eq_true.mp rfl,
    by decide +kernel⟩, by decide +kernel, by decide +kernel, fun writes => ?_⟩
  rw [printed] at writes
  have same := writes_unique (numeral_writes 18446744073709552000) writes
  omega

end SqlWire.IntegerBinding
