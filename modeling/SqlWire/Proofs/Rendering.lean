import SqlWire.Param.Basic
import SqlWire.Proofs.CalendarText
import SqlWire.Proofs.DecimalText
import SqlWire.Proofs.QuotedText

/-! How the literals of bound values are written: the null marker, numbers, one
pair of quotes around everything else that does not nest, and brackets. Every value
has its literal on paper; it is rendered as that unless a decimal in it cannot be
displayed. -/
namespace SqlWire.Rendering
open NumeralText DecimalGrammar DecimalText CalendarText QuotedText

/-! ## What is rendered -/

mutual

/-- The literal of a value, with every decimal in plain notation, displayed or not. -/
def literalOf : Param → Text
  | .null => ['\\', 'N']
  | .bool value => if value then ['1'] else ['0']
  | .int value => Numeral.ofInt value.toInt
  | .float value => FloatText.literal value
  | .decimal value => value.toText
  | .text value => Text.quote value
  | .date value => '\'' :: value.toText ++ ['\'']
  | .timestamp value => '\'' :: value.toText ++ ['\'']
  | .array items => '[' :: Text.joinWith [','] (literalsOf items) ++ [']']

/-- The literals of a list of values. -/
def literalsOf : List Param → List Text
  | [] => []
  | item :: items => literalOf item :: literalsOf items

end

theorem literals_eq_map (items : List Param) : literalsOf items = items.map literalOf := by
  induction items with
  | nil => rfl
  | cons item items ih => rw [literalsOf, List.map_cons, ih]

/-- A decimal stands in a bound value, at any depth. -/
inductive Holds (d : Decimal) : Param → Prop where
  | here : Holds d (.decimal d)
  | array (member : item ∈ items) (inside : Holds d item) : Holds d (.array items)

/-- A decimal below one stands in a value and has more places than zeros can fill. -/
def TooDeep (value : Param) : Prop :=
  ∃ d, Holds d value ∧ 65535 < d.scale.toNat ∧ |rational d| < 1

private theorem array_too_deep : TooDeep (.array items) ↔ ∃ item ∈ items, TooDeep item := by
  constructor
  · rintro ⟨d, _ | ⟨member, inside⟩, deep⟩
    exact ⟨_, member, d, inside, deep⟩
  · rintro ⟨item, member, d, inside, deep⟩
    exact ⟨d, .array member inside, deep⟩

theorem decimal_too_deep : TooDeep (.decimal d) ↔ d.display? = none := by
  rw [not_displayed_iff]
  constructor
  · rintro ⟨_, ⟨⟩, deep⟩
    exact deep
  · exact fun deep => ⟨d, .here, deep⟩

theorem scalar_not_deep (none : ∀ d, ¬ Holds d value) : ¬ TooDeep value :=
  fun ⟨d, inside, _⟩ => none d inside

private theorem items_rendered
    (each : ∀ item ∈ items, ∀ text,
      Param.render? item = some text ↔ ¬ TooDeep item ∧ text = literalOf item) :
    Param.renderAll? items = some texts ↔
      (∀ item ∈ items, ¬ TooDeep item) ∧ texts = literalsOf items := by
  induction items generalizing texts with
  | nil => simp [Param.renderAll?, literalsOf, eq_comm]
  | cons item items ih =>
    obtain ⟨first, others⟩ := List.forall_mem_cons.mp each
    simp only [Param.renderAll?, Option.bind_eq_bind, Option.bind_eq_some_iff, first, ih others,
      Option.pure_def, Option.some_inj, List.forall_mem_cons, literalsOf]
    constructor
    · rintro ⟨_, ⟨here, rfl⟩, _, ⟨behind, rfl⟩, rfl⟩
      exact ⟨⟨here, behind⟩, rfl⟩
    · rintro ⟨⟨here, behind⟩, rfl⟩
      exact ⟨_, ⟨here, rfl⟩, _, ⟨behind, rfl⟩, rfl⟩

/-- A value is rendered as its literal, unless a decimal in it cannot be displayed. -/
theorem rendered_iff : (value : Param) → (text : Text) →
    (value.render? = some text ↔ ¬ TooDeep value ∧ text = literalOf value)
  | .decimal d, text => by
    rw [Param.render?, literalOf, decimal_too_deep, not_displayed_iff, not_and_or, not_lt, not_lt,
      displayed_iff]
  | .array items, text => by
    have each : ∀ item ∈ items, ∀ text,
        item.render? = some text ↔ ¬ TooDeep item ∧ text = literalOf item :=
      fun item member => rendered_iff item
    simp only [Param.render?, Option.map_eq_some_iff, literalOf, items_rendered each,
      array_too_deep, not_exists, not_and]
    constructor
    · rintro ⟨_, ⟨each, rfl⟩, rfl⟩
      exact ⟨each, rfl⟩
    · rintro ⟨each, rfl⟩
      exact ⟨_, ⟨each, rfl⟩, rfl⟩
  | .null, text | .bool _, text | .int _, text | .float _, text | .text _, text | .date _, text
  | .timestamp _, text => by
    rw [and_iff_right (scalar_not_deep (by rintro d ⟨⟩)), Param.render?, literalOf, Option.some_inj,
      eq_comm]

theorem not_rendered_iff : Param.render? value = none ↔ TooDeep value := by
  rw [Option.eq_none_iff_forall_ne_some]
  constructor
  · intro none
    by_contra shown
    exact none _ ((rendered_iff value _).mpr ⟨shown, rfl⟩)
  · intro deep text rendered
    exact ((rendered_iff value text).mp rendered).1 deep

theorem rendered_all_iff : Param.renderAll? values = some texts ↔
    (∀ value ∈ values, ¬ TooDeep value) ∧ texts = values.map literalOf := by
  rw [items_rendered fun value _ => rendered_iff value, literals_eq_map]

/-! ## How literals are written -/

private theorem calendar_plain (chars : ∀ c ∈ text, CalendarChar c) :
    '\'' :: text ++ ['\''] = Text.quote text := by
  rw [Text.quote, quote_body_plain]
  intro c member
  rcases chars c member with digit | mark
  · exact ⟨digit_ne digit (by decide), digit_ne digit (by decide), digit_ne digit (by decide)⟩
  · simp only [List.mem_cons, List.not_mem_nil, or_false] at mark
    rcases mark with rfl | rfl | rfl | rfl | rfl <;> decide

/-- Nothing in a date needs an escape. -/
theorem date_quoted (date : Date) : literalOf (.date date) = Text.quote date.toText := by
  rw [literalOf, calendar_plain]
  intro c member
  rcases date_chars date c member with digit | rfl | rfl
  · exact .inl digit
  · exact .inr (by simp)
  · exact .inr (by simp)

/-- Nothing in a timestamp needs an escape. -/
theorem stamp_quoted (stamp : Timestamp) :
    literalOf (.timestamp stamp) = Text.quote stamp.toText := by
  rw [literalOf, calendar_plain (stamp_chars stamp)]

/-- Values without floating-point numbers at any depth. -/
inductive NoFloat : Param → Prop where
  | null : NoFloat .null
  | bool : NoFloat (.bool value)
  | int : NoFloat (.int value)
  | decimal : NoFloat (.decimal value)
  | text : NoFloat (.text value)
  | date : NoFloat (.date value)
  | timestamp : NoFloat (.timestamp value)
  | array (each : ∀ item ∈ items, NoFloat item) : NoFloat (.array items)

/-- Numbers below zero. -/
def IsNegative : Param → Prop
  | .int value => value.toInt < 0
  | .decimal value => value.unscaled < 0
  | _ => False

/-- Values that are written between quotes. -/
def IsQuoted : Param → Prop
  | .text _ | .date _ | .timestamp _ => True
  | _ => False

/-- A number without its sign. -/
structure NumberBody (text : Text) : Prop where
  starts : ∀ c ∈ text.head?, c.isDigit = true
  some : text ≠ []
  chars : ∀ c ∈ text, c.isDigit = true ∨ c = '.'

/-- The ways in which literals are written. -/
inductive Written : Param → Text → Prop where
  | null : Written .null ['\\', 'N']
  | number (unquoted : ¬ IsQuoted value) (unsigned : ¬ IsNegative value) (body : NumberBody text) :
      Written value text
  | negative (unquoted : ¬ IsQuoted value) (signed : IsNegative value) (body : NumberBody text) :
      Written value ('-' :: text)
  | quoted (quotes : IsQuoted value) (unsigned : ¬ IsNegative value) :
      Written value (Text.quote text)
  | array : Written (.array items) ('[' :: Text.joinWith [','] (items.map literalOf) ++ [']'])

private theorem numeral_body (n : Nat) : NumberBody (Numeral.ofNat n) :=
  ⟨fun c first => numeral_digits n c (List.mem_of_mem_head? first), numeral_not_empty n,
    fun c member => .inl (numeral_digits n c member)⟩

private theorem decimal_body (d : Decimal) : NumberBody (body d) := by
  obtain ⟨c, rest, same, digit⟩ := body_starts d
  refine ⟨?_, by simp [same], body_chars d⟩
  rw [same]
  rintro _ ⟨⟩
  exact digit

/-- Every literal is written in one of these ways. -/
theorem literal_written (plain : NoFloat value) : Written value (literalOf value) := by
  cases plain with
  | null => exact .null
  | @bool value =>
    refine .number id id ⟨?_, ?_, ?_⟩ <;> cases value <;> simp [literalOf]
  | @int value =>
    rw [literalOf, Numeral.ofInt]
    split
    next negative => exact .negative id negative (numeral_body _)
    next unsigned => exact .number id unsigned (numeral_body _)
  | @decimal value =>
    rw [literalOf, decimal_text]
    split
    next negative => exact .negative id negative (decimal_body _)
    next unsigned => exact .number id unsigned (decimal_body _)
  | text =>
    rw [literalOf]
    exact .quoted trivial id
  | date =>
    rw [date_quoted]
    exact .quoted trivial id
  | timestamp =>
    rw [stamp_quoted]
    exact .quoted trivial id
  | array =>
    rw [literalOf, literals_eq_map]
    exact .array

/-- What a literal can begin with. -/
def LiteralStart (c : Char) : Prop := c.isDigit = true ∨ c ∈ ['\\', '-', '\'', '[']

/-- What a literal can end with. -/
def LiteralStop (c : Char) : Prop := c.isDigit = true ∨ c ∈ ['N', '.', '\'', ']']

/-- A literal begins with a dash just when it is a negative number, and with a quote
just when it is quoted. -/
theorem literal_starts (plain : NoFloat value) :
    ∃ c rest, literalOf value = c :: rest ∧ LiteralStart c ∧ (c = '-' ↔ IsNegative value) ∧
      (c = '\'' ↔ IsQuoted value) := by
  have written := literal_written plain
  generalize literalOf value = text at written
  cases written with
  | null => exact ⟨'\\', _, rfl, .inr (by simp), by simp [IsNegative], by simp [IsQuoted]⟩
  | number unquoted unsigned body =>
    obtain ⟨c, rest, rfl⟩ := List.exists_cons_of_ne_nil body.some
    have digit := body.starts c rfl
    exact ⟨c, rest, rfl, .inl digit, iff_of_false (digit_ne digit (by decide)) unsigned,
      iff_of_false (digit_ne digit (by decide)) unquoted⟩
  | negative unquoted signed body =>
    exact ⟨'-', _, rfl, .inr (by simp), iff_of_true rfl signed, iff_of_false (by decide) unquoted⟩
  | quoted quotes unsigned =>
    exact ⟨'\'', _, rfl, .inr (by simp), iff_of_false (by decide) unsigned, iff_of_true rfl quotes⟩
  | array => exact ⟨'[', _, rfl, .inr (by simp), by simp [IsNegative], by simp [IsQuoted]⟩

private theorem number_stops (body : NumberBody text) :
    ∃ front c, text = front ++ [c] ∧ LiteralStop c := by
  rcases List.eq_nil_or_concat text with rfl | ⟨front, c, rfl⟩
  · exact absurd rfl body.some
  · rw [List.concat_eq_append] at body ⊢
    refine ⟨front, c, rfl, ?_⟩
    rcases body.chars c (List.mem_append_right _ List.mem_cons_self) with digit | rfl
    · exact .inl digit
    · exact .inr (by simp)

theorem literal_stops (plain : NoFloat value) :
    ∃ front c, literalOf value = front ++ [c] ∧ LiteralStop c := by
  have written := literal_written plain
  generalize literalOf value = text at written
  cases written with
  | null => exact ⟨['\\'], 'N', rfl, .inr (by simp)⟩
  | number unquoted unsigned body => exact number_stops body
  | negative unquoted signed body =>
    obtain ⟨front, c, rfl, stop⟩ := number_stops body
    exact ⟨'-' :: front, c, rfl, stop⟩
  | quoted => exact ⟨_, '\'', rfl, .inr (by simp)⟩
  | array => exact ⟨_, ']', rfl, .inr (by simp)⟩

end SqlWire.Rendering
