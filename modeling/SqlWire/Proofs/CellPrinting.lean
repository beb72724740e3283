import Mathlib.Tactic.IntervalCases
import SqlWire.Proofs.Coercion
import SqlWire.Proofs.PlainNotation
import SqlWire.Proofs.TypeSoundness

/-! A cell that a scalar column has read is printed in a form the column reads as the same
value, however the cell was spelled. Bytes are where the reader and the printer are not each
other's inverse as they stand: a cell may have capital digits or no digits at all, and what is
printed has neither. Only a decimal with more places than zeros can fill is not printed. -/
namespace SqlWire.CellPrinting
open CalendarGrammar NumeralText DecimalGrammar DecimalText CalendarText PlainNotation Coercion
open Outcomes ReadBack
open Value (isHexDigit hexValue hexBytes readBytes bytesText decodeScalar)

/-! ## Hexadecimal digits -/

/-- The digits that bytes are printed in, each at the place of its value. -/
def smallDigits : List Char := "0123456789abcdef".toList

def capitalDigits : List Char := "0123456789ABCDEF".toList

/-- A character is the hexadecimal digit of a value, in either case. -/
def DigitOf (c : Char) (n : Nat) : Prop := smallDigits[n]? = some c ∨ capitalDigits[n]? = some c

/-- Digits that stand in pairs, and the bytes whose halves they are. -/
inductive Pairs : Text → Bytes → Prop where
  | nil : Pairs [] []
  | cons (high : DigitOf c h) (low : DigitOf d l) (rest : Pairs digits bytes) :
      Pairs (c :: d :: digits) (UInt8.ofNat (16 * h + l) :: bytes)

private theorem digit_value (digit : DigitOf c n) : isHexDigit c = true ∧ hexValue c = n := by
  have small : n < 16 := by
    rcases digit with here | here <;> exact (List.getElem?_eq_some_iff.mp here).1
  unfold DigitOf at digit
  interval_cases n <;> rcases digit with here | here <;> cases here <;> exact ⟨rfl, rfl⟩

private theorem digit_of_value (digit : isHexDigit c = true) : DigitOf c (hexValue c) := by
  have number : c = Char.ofNat c.toNat := (Char.ofNat_toNat c).symm
  simp only [isHexDigit, Bool.or_eq_true, Bool.and_eq_true, decide_eq_true_eq] at digit
  rcases digit with (decimal | ⟨above, below⟩) | ⟨above, below⟩
  · obtain ⟨above, below⟩ := digit_range decimal
    rw [number]
    generalize c.toNat = n at above below
    interval_cases n <;> exact .inl rfl
  · have above : 97 ≤ c.toNat := above
    have below : c.toNat ≤ 102 := below
    rw [number]
    generalize c.toNat = n at above below
    interval_cases n <;> exact .inl rfl
  · have above : 65 ≤ c.toNat := above
    have below : c.toNat ≤ 70 := below
    rw [number]
    generalize c.toNat = n at above below
    interval_cases n <;> exact .inr rfl

private theorem digit_listed : isHexDigit c = true ↔ c ∈ smallDigits ++ capitalDigits := by
  rw [List.mem_append, List.mem_iff_getElem?, List.mem_iff_getElem?]
  constructor
  · intro digit
    exact (digit_of_value digit).imp (fun here => ⟨_, here⟩) fun here => ⟨_, here⟩
  · rintro (⟨n, here⟩ | ⟨n, here⟩)
    · exact (digit_value (.inl here)).1
    · exact (digit_value (.inr here)).1

/-! ## Bytes -/

private theorem even_pairs (digits : ∀ c ∈ text, isHexDigit c = true) (even : text.length % 2 = 0) :
    Pairs text (hexBytes text) := by
  fun_induction hexBytes text with
  | case1 high low rest ih =>
    rw [List.forall_mem_cons, List.forall_mem_cons] at digits
    obtain ⟨first, second, others⟩ := digits
    have value : hexValue high * 16 + hexValue low = 16 * hexValue high + hexValue low := by omega
    rw [value]
    exact .cons (digit_of_value first) (digit_of_value second)
      (ih others (by simp only [List.length_cons] at even; omega))
  | case2 text short =>
    match text with
    | [] => exact .nil
    | [c] => cases even
    | high :: low :: rest => exact absurd rfl (short high low rest)

private theorem pairs_even (pairs : Pairs text bytes) :
    (∀ c ∈ text, isHexDigit c = true) ∧ text.length % 2 = 0 ∧ hexBytes text = bytes := by
  induction pairs with
  | nil => exact ⟨by simp, rfl, rfl⟩
  | @cons c h d l digits bytes high low rest ih =>
    obtain ⟨others, even, same⟩ := ih
    obtain ⟨first, highValue⟩ := digit_value high
    obtain ⟨second, lowValue⟩ := digit_value low
    refine ⟨List.forall_mem_cons.mpr ⟨first, List.forall_mem_cons.mpr ⟨second, others⟩⟩, ?_, ?_⟩
    · simp only [List.length_cons]
      omega
    · rw [hexBytes, highValue, lowValue, same, Nat.mul_comm]

/-- Behind the mark of bytes only digits in pairs are read, as the bytes whose halves they
are. -/
theorem read_bytes_iff :
    readBytes ('\\' :: 'x' :: digits) = .ok bytes ↔ Pairs digits bytes := by
  have marked : Text.dropLead? ['\\', 'x'] ('\\' :: 'x' :: digits) = some digits := rfl
  rw [readBytes, marked]
  dsimp only
  constructor
  · intro reads
    split at reads
    · cases reads
    next all =>
      split at reads
      · cases reads
      next even =>
        cases reads
        exact even_pairs (by simpa using all) (by omega)
  · intro pairs
    obtain ⟨all, even, rfl⟩ := pairs_even pairs
    have digits : digits.all isHexDigit = true := List.all_eq_true.mpr all
    rw [digits, if_neg (by simp), if_neg (by omega)]

theorem pairs_exist_iff : (∃ bytes, Pairs digits bytes) ↔
    digits.length % 2 = 0 ∧ ∀ c ∈ digits, c ∈ smallDigits ++ capitalDigits := by
  constructor
  · rintro ⟨bytes, pairs⟩
    obtain ⟨all, even, -⟩ := pairs_even pairs
    exact ⟨even, fun c member => digit_listed.mp (all c member)⟩
  · rintro ⟨even, all⟩
    exact ⟨_, even_pairs (fun c member => digit_listed.mpr (all c member)) even⟩

/-- A byte is printed in the two small digits of its halves. -/
theorem byte_printed (fits : n < 256) :
    ∃ high low, Numeral.hex 2 n = [high, low] ∧ smallDigits[n / 16]? = some high ∧
      smallDigits[n % 16]? = some low := by
  have printed : ∀ n < 256,
      (Numeral.hex 2 n).map some = [smallDigits[n / 16]?, smallDigits[n % 16]?] := by
    decide +kernel
  have here := printed n fits
  match shape : Numeral.hex 2 n with
  | [high, low] =>
    rw [shape] at here
    simp only [List.map_cons, List.map_nil, List.cons.injEq] at here
    exact ⟨high, low, rfl, here.1.symm, here.2.1.symm⟩
  | [] | [_] | _ :: _ :: _ :: _ =>
    rw [shape] at here
    simp at here

/-- Bytes are printed as their mark and small digits, which stand for them. -/
theorem bytes_printed (bytes : Bytes) :
    ∃ digits, bytesText bytes = '\\' :: 'x' :: digits ∧ Pairs digits bytes ∧
      ∀ c ∈ digits, c ∈ smallDigits := by
  refine ⟨_, rfl, ?_⟩
  induction bytes with
  | nil => exact ⟨.nil, by simp⟩
  | cons byte bytes ih =>
    obtain ⟨pairs, small⟩ := ih
    obtain ⟨high, low, shape, first, second⟩ := byte_printed byte.toNat_lt
    have halves : UInt8.ofNat (16 * (byte.toNat / 16) + byte.toNat % 16) = byte := by
      rw [Nat.div_add_mod, UInt8.ofNat_toNat]
    rw [List.flatMap_cons, shape]
    refine ⟨?_, ?_⟩
    · rw [← halves]
      exact .cons (.inl first) (.inl second) pairs
    · exact List.forall_mem_cons.mpr ⟨List.mem_of_getElem? first,
        List.forall_mem_cons.mpr ⟨List.mem_of_getElem? second, small⟩⟩

private theorem bytes_read_back (bytes : Bytes) : readBytes (bytesText bytes) = .ok bytes := by
  obtain ⟨digits, printed, pairs, -⟩ := bytes_printed bytes
  rw [printed]
  exact read_bytes_iff.mpr pairs

/-! ## Cells -/

/-- The kinds of column that read every cell back from what it is printed as. -/
def printedKinds : List Kind :=
  [.boolean, .smallInt, .integer, .bigInt, .decimal, .text, .json, .unknown, .bytea, .date,
    .timestamp]

/-- The plain notation of a decimal is read as a cell, displayed or not. -/
theorem decimal_reads_back (d : Decimal) : decodeScalar .decimal d.toText = .ok (.decimal d) := by
  rw [decodeScalar, Value.readDecimal, read_decimal_text]
  rfl

private theorem decimal_kind (reads : decodeScalar kind text = .ok (.decimal d)) :
    kind = .decimal := by
  rcases TypeSoundness.scalar_suits reads with suits | ⟨-, none⟩
  · cases suits
    rfl
  · cases none

/-- What a cell is displayed as is read under its kind as the cell was. -/
theorem scalar_reads_back (listed : kind ∈ printedKinds)
    (reads : decodeScalar kind text = .ok value) (shown : value.display? = some other) :
    decodeScalar kind other = .ok value := by
  cases kind with
  | boolean =>
    simp only [decodeScalar] at reads
    split at reads
    next value _ =>
      cases reads
      cases shown
      cases value <;> rfl
    · cases reads
  | smallInt =>
    obtain ⟨n, -, rfl⟩ := map_ok reads
    cases shown
    simp only [decodeScalar, integer_trimmed, read_int16_numeral]
    rfl
  | integer =>
    obtain ⟨n, -, rfl⟩ := map_ok reads
    cases shown
    simp only [decodeScalar, integer_trimmed, read_int32_numeral]
    rfl
  | bigInt =>
    obtain ⟨n, -, rfl⟩ := map_ok reads
    cases shown
    simp only [decodeScalar, integer_trimmed, read_int64_numeral]
    rfl
  | decimal =>
    obtain ⟨d, -, rfl⟩ := map_ok reads
    rw [Value.display?] at shown
    obtain ⟨-, rfl⟩ := (displayed_iff d other).mp shown
    exact decimal_reads_back d
  | text | unknown | json =>
    cases reads
    cases shown
    rfl
  | bytea =>
    obtain ⟨bytes, -, rfl⟩ := map_ok reads
    cases shown
    simp only [decodeScalar, bytes_read_back]
    rfl
  | date =>
    obtain ⟨day, -, rfl⟩ := map_ok reads
    cases shown
    have trimmed := Text.trim_eq_self_of_all (date_not_blank day)
    have back : Value.readDate day.toText = .ok day := by rw [read_date_ok, trimmed, read_day_text]
    simp only [decodeScalar, back]
    rfl
  | timestamp =>
    -- no text is read as a leap second, which alone would not be read back
    obtain ⟨stamp, read, rfl⟩ := map_ok reads
    cases shown
    have ordinary := stamp_ordinary (read_timestamp_ok.mp read)
    have back : Value.readTimestamp stamp.toText = .ok stamp := by
      rw [read_timestamp_ok, stamp_trimmed, read_stamp_text stamp ordinary]
    simp only [decodeScalar, back]
    rfl
  | real | double | timestampTz | array | tuple | nothing => simp [printedKinds] at listed

/-- No scalar cell is read as an array or a tuple. -/
theorem inside_scalar (reads : decodeScalar kind text = .ok value) :
    Inside d value ↔ value = .decimal d := by
  constructor
  · intro inside
    cases inside with
    | here => rfl
    | array | tuple =>
      rcases TypeSoundness.scalar_suits reads with suits | ⟨-, none⟩
      · cases suits
      · cases none
  · rintro rfl
    exact .here

/-- A value is printed in a row just when it is displayed. -/
theorem row_hidden_iff (column : Column) (value : Value) :
    Report.json? [column] [[value]] = none ↔ value.display? = none := by
  rw [json_not_printed_iff, hidden_iff]
  simp

/-- A scalar cell that is not displayed is a decimal below one with more places than zeros can
fill. -/
theorem hidden_scalar (reads : decodeScalar kind text = .ok value)
    (hidden : value.display? = none) :
    ∃ d, value = .decimal d ∧ 65535 < d.scale.toNat ∧ |rational d| < 1 := by
  obtain ⟨d, inside, deep⟩ := (hidden_iff value).mp hidden
  exact ⟨d, (inside_scalar reads).mp inside, (not_displayed_iff d).mp deep⟩

/-- A cell of a scalar column is displayed as a text that the column reads as the same value,
unless it is a decimal below one with more places than zeros can fill; then only its plain
notation on paper is read so, and it is neither displayed nor printed in a row. A cell of bytes
that has their mark is read where digits of either case stand behind it in pairs, and only
there, each byte from the two digits of its halves; and every string of bytes is displayed as
the mark and small digits, which are read as those bytes. -/
theorem printed_cell_reads_back (listed : column.kind ∈ printedKinds) (text : Text) :
    (∀ value, Value.decode column (some text) = .ok value →
      ((∃ shown, value.display? = some shown ∧ Value.decode column (some shown) = .ok value) ∨
        ∃ d, value = .decimal d ∧ 65535 < d.scale.toNat ∧ |rational d| < 1 ∧
          value.display? = none ∧ Value.decode column (some d.toText) = .ok value) ∧
      (Report.json? [column] [[value]] = none ↔ value.display? = none)) ∧
    (column.kind = .bytea →
      (∀ digits bytes, Value.decode column (some ('\\' :: 'x' :: digits)) = .ok (.bytes bytes) ↔
        Pairs digits bytes) ∧
      (∀ digits, (∃ value, Value.decode column (some ('\\' :: 'x' :: digits)) = .ok value) ↔
        digits.length % 2 = 0 ∧ ∀ c ∈ digits, c ∈ smallDigits ++ capitalDigits) ∧
      ∀ bytes, ∃ digits, (Value.bytes bytes).display? = some ('\\' :: 'x' :: digits) ∧
        Value.decode column (some ('\\' :: 'x' :: digits)) = .ok (.bytes bytes) ∧
        Pairs digits bytes ∧ ∀ c ∈ digits, c ∈ smallDigits) := by
  have decodes (cell : Text) :
      Value.decode column (some cell) = decodeScalar column.kind cell := by
    apply if_neg
    rintro (array | tuple)
    · simp [array, printedKinds] at listed
    · simp [tuple, printedKinds] at listed
  simp only [decodes]
  refine ⟨fun value reads => ⟨?_, row_hidden_iff column value⟩, fun kind => ?_⟩
  · cases shown : value.display? with
    | some other => exact .inl ⟨other, rfl, scalar_reads_back listed reads shown⟩
    | none =>
      obtain ⟨d, rfl, deep, small⟩ := hidden_scalar reads shown
      refine .inr ⟨d, rfl, deep, small, rfl, ?_⟩
      rw [decimal_kind reads]
      exact decimal_reads_back d
  · have bytesRead (cell : Text) (bytes : Bytes) :
        decodeScalar .bytea cell = .ok (.bytes bytes) ↔ readBytes cell = .ok bytes := by
      constructor
      · intro reads
        obtain ⟨found, read, same⟩ := map_ok reads
        cases same
        exact map_error_ok.mp read
      · intro read
        simp only [decodeScalar, read]
        rfl
    rw [kind]
    refine ⟨fun digits bytes => ?_, fun digits => ?_, fun bytes => ?_⟩
    · rw [bytesRead, read_bytes_iff]
    · rw [← pairs_exist_iff]
      constructor
      · rintro ⟨value, reads⟩
        obtain ⟨bytes, -, rfl⟩ := map_ok reads
        exact ⟨bytes, read_bytes_iff.mp ((bytesRead _ bytes).mp reads)⟩
      · rintro ⟨bytes, pairs⟩
        exact ⟨_, (bytesRead _ bytes).mpr (read_bytes_iff.mpr pairs)⟩
    · obtain ⟨digits, printed, pairs, small⟩ := bytes_printed bytes
      exact ⟨digits, congrArg some printed, (bytesRead _ bytes).mpr (read_bytes_iff.mpr pairs),
        pairs, small⟩

/-- Digits of both cases are read as the bytes that small ones are printed for. -/
theorem mixed_digits_read_back :
    let column := Column.ofKind .bytea
    let value := Value.bytes [0xAB, 0xCD]
    column.kind ∈ printedKinds ∧ Value.decode column (some "\\xABcd".toList) = .ok value ∧
      value.display? = some "\\xabcd".toList ∧
      Value.decode column (some "\\xabcd".toList) = .ok value ∧
      Pairs "ABcd".toList [0xAB, 0xCD] := by
  intro column value
  have listed : column.kind ∈ printedKinds := by decide
  have reads : Value.decode column (some "\\xABcd".toList) = .ok value := by rfl
  have shown : value.display? = some "\\xabcd".toList := by rfl
  obtain ⟨back, bytes⟩ := printed_cell_reads_back listed "\\xABcd".toList
  obtain ⟨pairs, -⟩ := bytes rfl
  refine ⟨listed, reads, shown, ?_, (pairs _ _).mp reads⟩
  obtain ⟨⟨other, same, again⟩ | ⟨d, decimal, -⟩, -⟩ := back value reads
  · cases shown.symm.trans same
    exact again
  · cases (show Value.bytes _ = .decimal d from decimal)

/-- A cell of zero with one place more than zeros can fill is read, but has no printed form to
read back. -/
theorem deep_zero_cell_is_not_printed :
    let column := Column.ofKind .decimal
    let cell := '0' :: '.' :: List.replicate 65536 '0'
    column.kind ∈ printedKinds ∧ Value.decode column (some cell) = .ok (.decimal ⟨0, 65536⟩) ∧
      (Value.decimal ⟨0, 65536⟩).display? = none ∧
      Report.json? [column] [[.decimal ⟨0, 65536⟩]] = none := by
  intro column cell
  have text : cell = Decimal.toText ⟨0, 65536⟩ := (plain_form_iff _ _).mp (zero_plain_form rfl)
  have reads : Value.decode column (some cell) = .ok (.decimal ⟨0, 65536⟩) := by
    have decodes (cell : Text) : Value.decode column (some cell) = decodeScalar .decimal cell := by
      rfl
    rw [decodes, text, decimal_reads_back]
  have hidden : (Value.decimal ⟨0, 65536⟩).display? = none := by
    rw [Value.display?, deep_zero_hidden]
  exact ⟨by decide, reads, hidden, (row_hidden_iff _ _).mpr hidden⟩

end SqlWire.CellPrinting
