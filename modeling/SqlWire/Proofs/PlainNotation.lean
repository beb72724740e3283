import Mathlib.Algebra.Order.Field.Basic
import Mathlib.Algebra.Order.Ring.Unbundled.Rat
import Mathlib.Tactic.Positivity
import SqlWire.CommandLine.Report
import SqlWire.Proofs.DecimalText

/-! A decimal has one form in plain notation, and that is the form it is printed in and read
back from. The form is described here by its parts and the number they write. Zeros can fill
a fraction only up to a limit, so a decimal below one whose scale is above that has its form
but is not displayed, and rows that hold one anywhere are not printed at all. -/
namespace SqlWire.PlainNotation
open NumeralText DecimalGrammar DecimalText Outcomes

/-! ## Plain notation -/

/-- A number in plain notation. A digit stands before the point, and a zero there stands
alone. -/
structure Plain where
  negative : Bool
  whole : Text
  fraction : Text
  whole_digits : AllDigits whole
  fraction_digits : AllDigits fraction
  not_empty : whole ≠ []
  no_zeros : whole = ['0'] ∨ whole.head? ≠ some '0'

namespace Plain

/-- The point stands only before a fraction. -/
def text (n : Plain) : Text :=
  (if n.negative then ['-'] else []) ++ n.whole ++
    if n.fraction = [] then [] else '.' :: n.fraction

def magnitude (n : Plain) : ℚ := natural n.whole + natural n.fraction / 10 ^ n.fraction.length

end Plain

/-- A text shows a decimal in plain notation: all its places, its magnitude, and a minus sign
just below zero. -/
def PlainForm (d : Decimal) (text : Text) : Prop :=
  ∃ n : Plain, n.text = text ∧ n.fraction.length = d.scale.toNat ∧ n.magnitude = |rational d| ∧
    (n.negative = true ↔ rational d < 0)

/-! ## Numerals without superfluous zeros -/

/-- Digits that no superfluous zero begins are all significant. -/
theorem significant_self (full : text ≠ []) (starts : text = ['0'] ∨ text.head? ≠ some '0') :
    significant text = text := by
  rcases starts with rfl | other
  · rfl
  · obtain ⟨c, rest, rfl⟩ := List.exists_cons_of_ne_nil full
    have first : c ≠ '0' := by simpa using other
    have kept : (c :: rest).dropWhile (· = '0') = c :: rest :=
      List.dropWhile_cons_of_neg (by simpa using first)
    rw [significant, kept, if_neg full]

private theorem numeral_starts (n : Nat) :
    Numeral.ofNat n = ['0'] ∨ (Numeral.ofNat n).head? ≠ some '0' := by
  have printed := numeral_significant (numeral_digits n)
  rw [natural_value, value_numeral] at printed
  rw [printed]
  exact significant_starts _

/-! ## The printed form -/

private theorem rational_neg (d : Decimal) : rational d < 0 ↔ d.unscaled < 0 := by
  have scale : (0 : ℚ) < 10 ^ d.scale.toNat := by positivity
  rw [rational, div_lt_iff₀ scale, zero_mul, Int.cast_lt_zero]

/-- The digits of both parts are those of the unscaled number. -/
theorem plain_digits (n : Plain) (places : n.fraction.length = d.scale.toNat)
    (same : n.magnitude = |rational d|) :
    natural n.whole * 10 ^ d.scale.toNat + natural n.fraction = d.unscaled.natAbs := by
  have ten : (10 : ℚ) ^ d.scale.toNat ≠ 0 := by positivity
  rw [Plain.magnitude, magnitude_rational, places, eq_div_iff ten, add_mul,
    div_mul_cancel₀ _ ten] at same
  exact_mod_cast same

private theorem whole_no_zeros (d : Decimal) : whole d = ['0'] ∨ (whole d).head? ≠ some '0' := by
  have scale := filled_length d
  by_cases short : d.digits.length ≤ d.scale.toNat
  · -- The digits are filled up to just one before the point.
    left
    obtain ⟨zeros, fill⟩ : ∃ zeros, d.scale.toNat + 1 - d.digits.length = zeros + 1 :=
      ⟨d.scale.toNat - d.digits.length, by omega⟩
    have filled : filledDigits d = '0' :: (List.replicate zeros '0' ++ d.digits) := by
      rw [filledDigits, Text.padLeft, Text.repeated, fill, List.replicate_succ, List.cons_append]
    have one : (filledDigits d).length - d.scale.toNat = 1 := by
      rw [filledDigits, padded_length]
      omega
    rw [whole, one, filled]
    rfl
  · have filled : filledDigits d = d.digits := by
      have none : d.scale.toNat + 1 - d.digits.length = 0 := by omega
      rw [filledDigits, Text.padLeft, Text.repeated, none, List.replicate_zero, List.nil_append]
    rw [filled] at scale
    obtain ⟨front, places⟩ : ∃ front, d.digits.length - d.scale.toNat = front + 1 :=
      ⟨d.digits.length - d.scale.toNat - 1, by omega⟩
    obtain ⟨c, rest, digits⟩ := List.exists_cons_of_ne_nil (numeral_not_empty d.unscaled.natAbs)
    have starts := numeral_starts d.unscaled.natAbs
    rw [whole, filled, places]
    rw [← Decimal.digits] at starts digits
    rw [digits] at starts ⊢
    rcases starts with zero | other
    · left
      obtain ⟨rfl, rfl⟩ := List.cons.inj zero
      rw [List.take_succ_cons, List.take_nil]
    · exact .inr other

/-- The printed form by its parts. -/
def plainOf (d : Decimal) : Plain where
  negative := decide (d.unscaled < 0)
  whole := whole d
  fraction := fraction d
  whole_digits := whole_digits d
  fraction_digits := fraction_digits d
  not_empty := whole_not_empty d
  no_zeros := whole_no_zeros d

private theorem plain_of_text (d : Decimal) : (plainOf d).text = d.toText := by
  have point : (if fraction d = [] then [] else '.' :: fraction d) =
      if d.scale.toNat = 0 then [] else '.' :: fraction d := by
    have lengths := fraction_length d
    by_cases flat : d.scale.toNat = 0
    · rw [flat] at lengths
      rw [if_pos flat, if_pos (List.eq_nil_of_length_eq_zero lengths)]
    · have some : fraction d ≠ [] := fun none => flat (lengths.symm.trans (by rw [none]; rfl))
      rw [if_neg flat, if_neg some]
  change (if decide (d.unscaled < 0) = true then ['-'] else []) ++ whole d ++
    (if fraction d = [] then [] else '.' :: fraction d) = d.toText
  rw [point, decimal_text, body]
  by_cases flat : d.scale.toNat = 0 <;> by_cases negative : d.unscaled < 0 <;> simp [flat, negative]

private theorem text_plain_form (d : Decimal) : PlainForm d d.toText := by
  refine ⟨plainOf d, plain_of_text d, fraction_length d, ?_, ?_⟩
  · have digits := filled_value d
    rw [← whole_fraction, ← natural_value, natural_append, fraction_length] at digits
    rw [magnitude_rational, ← digits]
    change (natural (whole d) : ℚ) + natural (fraction d) / 10 ^ (fraction d).length = _
    rw [fraction_length]
    push_cast
    field_simp
  · rw [rational_neg]
    exact decide_eq_true_iff

/-- Two texts in plain notation that show one decimal have the same digits: those before the
point are all significant, and those behind it are as many. -/
theorem plain_form_unique (one : PlainForm d text) (two : PlainForm d other) : text = other := by
  obtain ⟨n, rfl, places, same, sign⟩ := one
  obtain ⟨m, rfl, otherPlaces, otherSame, otherSign⟩ := two
  have digits := plain_digits n places same
  have otherDigits := plain_digits m otherPlaces otherSame
  have behind := value_bound n.fraction_digits
  have otherBehind := value_bound m.fraction_digits
  rw [places, ← natural_value] at behind
  rw [otherPlaces, ← natural_value] at otherBehind
  have wholes : natural n.whole = natural m.whole := by
    have front := congrArg (· / 10 ^ d.scale.toNat) (digits.trans otherDigits.symm)
    rwa [mul_comm, Nat.mul_add_div (by positivity), Nat.div_eq_of_lt behind, mul_comm,
      Nat.mul_add_div (by positivity), Nat.div_eq_of_lt otherBehind] at front
  have fractions : natural n.fraction = natural m.fraction := by
    rw [wholes, ← otherDigits] at digits
    exact Nat.add_left_cancel digits
  have whole : n.whole = m.whole := by
    rw [← significant_self n.not_empty n.no_zeros, ← significant_self m.not_empty m.no_zeros,
      ← numeral_significant n.whole_digits, ← numeral_significant m.whole_digits, wholes]
  have fraction : n.fraction = m.fraction := by
    have written := last_digits n.fraction_digits []
    have otherWritten := last_digits m.fraction_digits []
    rw [List.append_nil, places, ← natural_value] at written
    rw [List.append_nil, otherPlaces, ← natural_value] at otherWritten
    rw [← written, ← otherWritten, fractions]
  have signs : n.negative = m.negative := Bool.eq_iff_iff.mpr (sign.trans otherSign.symm)
  rw [Plain.text, Plain.text, signs, whole, fraction]

theorem plain_form_iff (d : Decimal) (text : Text) : PlainForm d text ↔ text = d.toText := by
  constructor
  · intro form
    exact plain_form_unique form (text_plain_form d)
  · rintro rfl
    exact text_plain_form d

/-! ## What is displayed -/

/-- A decimal stands in a value, at any depth. -/
inductive Inside (d : Decimal) : Value → Prop where
  | here : Inside d (.decimal d)
  | array (member : item ∈ items) (inside : Inside d item) : Inside d (.array items)
  | tuple (member : item ∈ items) (inside : Inside d item) : Inside d (.tuple items)

/-- A decimal in a value cannot be displayed. -/
def Hides (value : Value) : Prop := ∃ d : Decimal, Inside d value ∧ d.display? = none

theorem decimal_hides : Hides (.decimal d) ↔ d.display? = none := by
  constructor
  · rintro ⟨_, ⟨⟩, hidden⟩
    exact hidden
  · exact fun hidden => ⟨d, .here, hidden⟩

private theorem array_hides : Hides (.array items) ↔ ∃ item ∈ items, Hides item := by
  constructor
  · rintro ⟨d, _ | ⟨member, inside⟩, hidden⟩
    exact ⟨_, member, d, inside, hidden⟩
  · rintro ⟨item, member, d, inside, hidden⟩
    exact ⟨d, .array member inside, hidden⟩

private theorem tuple_hides : Hides (.tuple items) ↔ ∃ item ∈ items, Hides item := by
  constructor
  · rintro ⟨d, _ | _ | ⟨member, inside⟩, hidden⟩
    exact ⟨_, member, d, inside, hidden⟩
  · rintro ⟨item, member, d, inside, hidden⟩
    exact ⟨d, .tuple member inside, hidden⟩

private theorem items_hidden (each : ∀ item ∈ items, (Value.display? item = none ↔ Hides item)) :
    Value.displayAll? items = none ↔ ∃ item ∈ items, Hides item := by
  induction items with
  | nil => simp [Value.displayAll?]
  | cons item items ih =>
    obtain ⟨first, others⟩ := List.forall_mem_cons.mp each
    simp only [List.exists_mem_cons_iff, ← first, ← ih others, Value.displayAll?]
    cases item.display? <;> cases Value.displayAll? items <;> simp

/-- A value is displayed unless a decimal in it cannot be. -/
theorem hidden_iff : (value : Value) → (value.display? = none ↔ Hides value)
  | .decimal d => by rw [Value.display?, decimal_hides]
  | .array items => by
    have each : ∀ item ∈ items, (item.display? = none ↔ Hides item) :=
      fun item member => hidden_iff item
    rw [Value.display?, Option.map_eq_none_iff, items_hidden each, array_hides]
  | .tuple items => by
    have each : ∀ item ∈ items, (item.display? = none ↔ Hides item) :=
      fun item member => hidden_iff item
    rw [Value.display?, Option.map_eq_none_iff, items_hidden each, tuple_hides]
  | .null | .bool _ | .smallInt _ | .int _ | .bigInt _ | .real _ | .double _ | .text _ | .bytes _
  | .date _ | .timestamp _ | .timestampTz _ | .json _ => by
    refine iff_of_false (by simp [Value.display?]) ?_
    rintro ⟨d, ⟨⟩, -⟩

private theorem forms_missing (each : ∀ item ∈ items, (Value.toJson? item = none ↔ Hides item)) :
    Value.toJsons? items = none ↔ ∃ item ∈ items, Hides item := by
  induction items with
  | nil => simp [Value.toJsons?]
  | cons item items ih =>
    obtain ⟨first, others⟩ := List.forall_mem_cons.mp each
    simp only [List.exists_mem_cons_iff, ← first, ← ih others, Value.toJsons?]
    cases item.toJson? <;> cases Value.toJsons? items <;> simp

/-- A value has a JSON form just when it is displayed. -/
theorem no_form_iff : (value : Value) → (value.toJson? = none ↔ Hides value)
  | .array items => by
    have each : ∀ item ∈ items, (item.toJson? = none ↔ Hides item) :=
      fun item member => no_form_iff item
    rw [Value.toJson?, Option.map_eq_none_iff, forms_missing each, array_hides]
  | .tuple items => by
    have each : ∀ item ∈ items, (item.toJson? = none ↔ Hides item) :=
      fun item member => no_form_iff item
    rw [Value.toJson?, Option.map_eq_none_iff, forms_missing each, tuple_hides]
  | .decimal _ | .text _ | .bytes _ | .date _ | .timestamp _ | .timestampTz _ | .json _ => by
    rw [Value.toJson?, Option.map_eq_none_iff, hidden_iff]
    all_goals simp
  | .null | .bool _ | .smallInt _ | .int _ | .bigInt _ | .real _ | .double _ => by
    refine iff_of_false (by simp [Value.toJson?]) ?_
    rintro ⟨d, ⟨⟩, -⟩

/-- Rows are printed as JSON just when every decimal in them can be displayed. -/
theorem json_not_printed_iff (columns : List Column) (rows : List (List Value)) :
    Report.json? columns rows = none ↔ ∃ row ∈ rows, ∃ cell ∈ columns.zip row, Hides cell.2 := by
  simp only [Report.json?, Report.object?, Option.map_eq_none_iff, one_none_iff, no_form_iff]

/-- A cell is printed as what its decimal is displayed as. -/
theorem json_of_cell (column : Column) (d : Decimal) :
    Report.json? [column] [[.decimal d]] = d.display?.map fun text =>
      Report.lines [(Json.array [Json.ofMembers [(column.name, .string text)]]).pretty 0] := by
  simp only [Report.json?, Report.object?, Value.toJson?, Value.display?, List.zip_cons_cons,
    List.zip_nil_right, List.mapM_cons, List.mapM_nil]
  cases d.display? <;> rfl

/-- Every decimal has just one form in plain notation, with all its places, and that form is
read back as the decimal; two decimals are the same when their numbers and scales are, and
when their signs, digits and scales are. Where its scale is within the limit or the number
not below one, the form is what the decimal is displayed as and a cell of it printed as;
otherwise there is nothing to display or print. -/
theorem decimal_has_one_form (d e : Decimal) (column : Column) :
    (∃ text, (∀ other, PlainForm d other ↔ other = text) ∧ Decimal.ofText text = .ok d ∧
      (d.display? = some text ↔ d.scale.toNat ≤ 65535 ∨ 1 ≤ |rational d|) ∧
      (d.display? = none ↔ 65535 < d.scale.toNat ∧ |rational d| < 1)) ∧
    (Report.json? [column] [[.decimal d]] = d.display?.map fun text =>
      Report.lines [(Json.array [Json.ofMembers [(column.name, .string text)]]).pretty 0]) ∧
    (d = e ↔ d.scale = e.scale ∧ rational d = rational e) ∧
    (d = e ↔ (d.unscaled < 0 ↔ e.unscaled < 0) ∧ d.digits = e.digits ∧ d.scale = e.scale) := by
  have shown := (displayed_iff d d.toText).trans (and_iff_left rfl)
  refine ⟨⟨d.toText, plain_form_iff d, read_decimal_text d, shown, not_displayed_iff d⟩,
    json_of_cell column d, ?_, same_parts d e⟩
  constructor
  · rintro rfl
    exact ⟨rfl, rfl⟩
  · rintro ⟨scale, number⟩
    exact same_scale scale number

/-- Zero is shown by zeros in all its places. -/
theorem zero_plain_form {scale : UInt32} (places : scale.toNat = count + 1) :
    PlainForm ⟨0, scale⟩ ('0' :: '.' :: List.replicate (count + 1) '0') := by
  have zeros : AllDigits (List.replicate (count + 1) '0') := by
    intro c member
    rw [List.eq_of_mem_replicate member]
    rfl
  have nothing : natural (List.replicate (count + 1) '0') = 0 := by
    rw [natural, Nat.ofDigitChars_replicate_zero, Nat.mul_zero]
  have width : (List.replicate (count + 1) '0').length = scale.toNat := by
    rw [List.length_replicate, places]
  refine ⟨⟨false, ['0'], List.replicate (count + 1) '0', by simp [AllDigits], zeros, by simp,
    .inl rfl⟩, by simp [Plain.text], width, ?_, by simp [rational]⟩
  have zero : natural ['0'] = 0 := rfl
  rw [Plain.magnitude, nothing, zero]
  simp [rational]

/-- A zero of one place more than zeros can fill is read from its plain form, but it is not
displayed, and a cell of it is not printed. -/
theorem deep_zero_is_not_displayed :
    Decimal.ofText ('0' :: '.' :: List.replicate 65536 '0') = .ok ⟨0, 65536⟩ ∧
      PlainForm ⟨0, 65536⟩ ('0' :: '.' :: List.replicate 65536 '0') ∧
      Decimal.display? ⟨0, 65536⟩ = none ∧
      Report.json? [.ofKind .decimal] [[.decimal ⟨0, 65536⟩]] = none := by
  have form : PlainForm ⟨0, 65536⟩ ('0' :: '.' :: List.replicate 65536 '0') := zero_plain_form rfl
  have text := (plain_form_iff _ _).mp form
  refine ⟨text ▸ read_decimal_text _, form, deep_zero_hidden, ?_⟩
  rw [json_of_cell, deep_zero_hidden]
  rfl

end SqlWire.PlainNotation
