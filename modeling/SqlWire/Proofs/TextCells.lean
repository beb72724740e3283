import SqlWire.Proofs.Coercion

/-! Binding a text to a column and reading it as a cell of that column are one conversion on
the kinds that have both: either takes the text just where the other does, for the same
value. Integers are the kinds where this needs an argument, since a bound text is read in 64
bits and then measured, and a cell in the bits of its column. -/
namespace SqlWire.TextCells
open NumeralText Rendering WholeDecimals Coercion Outcomes

/-- A bound value and a decoded one that are the same truth value, number, text or time. -/
inductive Same : Param → Value → Prop where
  | bool : Same (.bool value) (.bool value)
  | smallInt (same : n.toInt = typed.toInt) : Same (.int n) (.smallInt typed)
  | int (same : n.toInt = typed.toInt) : Same (.int n) (.int typed)
  | bigInt (same : n.toInt = typed.toInt) : Same (.int n) (.bigInt typed)
  | double : Same (.float x) (.double x)
  | decimal : Same (.decimal d) (.decimal d)
  | text : Same (.text text) (.text text)
  | json : Same (.text text) (.json text)
  | date : Same (.date day) (.date day)
  | timestamp : Same (.timestamp stamp) (.timestamp stamp)

/-- Both give a value, and the same, or both refuse. -/
structure Alike (bound : Param.Coerced) (cell : Except ConversionFault Value) : Prop where
  answered : bound ≠ none
  accepted : (∃ w, bound = some (.ok w)) ↔ ∃ typed, cell = .ok typed
  same : bound = some (.ok w) → cell = .ok typed → Same w typed

private theorem alike_ok (same : Same w typed) : Alike (some (.ok w)) (.ok typed) := by
  refine ⟨by simp, iff_of_true ⟨w, rfl⟩ ⟨typed, rfl⟩, ?_⟩
  rintro _ _ ⟨⟩ ⟨⟩
  exact same

private theorem alike_error (fault other : ConversionFault) :
    Alike (some (.error fault)) (.error other) :=
  ⟨by simp, iff_of_false (by simp) (by simp), fun ok => by cases ok⟩

/-- What is read once and stored in two ways is alike. -/
theorem alike_map (reading : Except ConversionFault α) (same : ∀ found, Same (f found) (g found)) :
    Alike (some (reading.map f)) (reading.map g) := by
  cases reading with
  | error fault => exact alike_error fault fault
  | ok found => exact alike_ok (same found)

private theorem boolean_alike (text : Text) :
    Alike (Param.coerce? (.text text) .boolean) (Value.decodeScalar .boolean text) := by
  cases reads : Value.readBool? text with
  | none =>
    simp only [Param.coerce?, Param.toBoolean?, Value.decodeScalar, reads]
    exact alike_error _ _
  | some value =>
    simp only [Param.coerce?, Param.toBoolean?, Value.decodeScalar, reads]
    exact alike_ok .bool

private theorem double_alike (text : Text) :
    Alike (Param.coerce? (.text text) .double) (Value.decodeScalar .double text) := by
  cases reads : Value.readFloat? text with
  | none =>
    simp only [Param.coerce?, Param.toFloat?, Value.decodeScalar, reads]
    exact alike_error _ _
  | some value =>
    simp only [Param.coerce?, Param.toFloat?, Value.decodeScalar, reads]
    exact alike_ok .double

/-- There is always an answer for a text. -/
theorem text_answered : Param.coerce? (.text text) kind ≠ none := by
  intro unanswered
  obtain ⟨deep, -⟩ := unanswered_iff.mp unanswered
  exact scalar_not_deep (by rintro d ⟨⟩) deep

/-- Measuring an integer of 64 bits takes what reading in fewer bits takes. -/
theorem integer_alike (width : IntegerKind) {reading : Except Numeral.IntegerFault α}
    {toInteger : α → Int} {typed : α → Value}
    (reads : ∀ a, reading = .ok a ↔ Writes (Text.trim text) (toInteger a))
    (fits : ∀ a, width.Holds (toInteger a)) (held : ∀ n, width.Holds n → ∃ a, toInteger a = n)
    (same : ∀ n a, n.toInt = toInteger a → Same (.int n) (typed a)) :
    Alike (Param.coerce? (.text text) width.kind)
      ((Value.refuse text width.kind.sqlName (reading.mapError .integer)).map typed) := by
  have taken (a : α) (ok : reading = .ok a) :
      (Value.refuse text width.kind.sqlName (reading.mapError .integer)).map typed =
        .ok (typed a) := by
    rw [ok]
    rfl
  -- what 64 bits hold and the column takes, the fewer bits hold
  have narrowed {w : Param} (ok : Param.coerce? (.text text) width.kind = some (.ok w)) :
      ∃ n a, w = .int n ∧ n.toInt = toInteger a ∧ reading = .ok a := by
    obtain ⟨n, rfl, written, within⟩ := (numeral_accepted_iff width text w).mp ok
    obtain ⟨a, number⟩ := held _ within
    exact ⟨n, a, rfl, number.symm, (reads a).mpr (number ▸ written)⟩
  refine ⟨text_answered, ?_, ?_⟩
  · constructor
    · rintro ⟨w, ok⟩
      obtain ⟨_, a, -, -, read⟩ := narrowed ok
      exact ⟨_, taken a read⟩
    · rintro ⟨_, ok⟩
      obtain ⟨a, read, -⟩ := map_ok ok
      rw [Value.refuse, map_error_ok, map_error_ok, reads] at read
      have number := width.held_int64 (fits a)
      have within := fits a
      rw [← number] at read within
      exact ⟨_, (numeral_accepted_iff width text _).mpr ⟨_, rfl, read, within⟩⟩
  · rintro w _ bound cell
    obtain ⟨n, a, rfl, number, read⟩ := narrowed bound
    rw [taken a read] at cell
    cases cell
    exact same n a number

/-- The kinds that a text is bound to and that a cell is read under alike. -/
def bothWays : List Kind :=
  [.boolean, .smallInt, .integer, .bigInt, .double, .decimal, .text, .json, .unknown, .date,
    .timestamp]

private theorem scalar_alike (text : Text) (listed : kind ∈ bothWays) :
    Alike (Param.coerce? (.text text) kind) (Value.decodeScalar kind text) := by
  cases kind with
  | boolean => exact boolean_alike text
  | smallInt =>
    exact integer_alike .small read_int16_iff (fun a => ⟨a.le_toInt, a.toInt_lt⟩)
      (fun _ held => ⟨_, Int16.toInt_ofInt_of_le held.1 held.2⟩) fun _ _ => .smallInt
  | integer =>
    exact integer_alike .middle read_int32_iff (fun a => ⟨a.le_toInt, a.toInt_lt⟩)
      (fun _ held => ⟨_, Int32.toInt_ofInt_of_le held.1 held.2⟩) fun _ _ => .int
  | bigInt =>
    exact integer_alike .big read_int64_iff (fun a => ⟨a.le_toInt, a.toInt_lt⟩)
      (fun _ held => ⟨_, Int64.toInt_ofInt_of_le held.1 held.2⟩) fun _ _ => .bigInt
  | double => exact double_alike text
  | decimal => exact alike_map (Value.readDecimal text) fun _ => .decimal
  | text | unknown => exact alike_ok .text
  | json => exact alike_ok .json
  | date => exact alike_map (Value.readDate text) fun _ => .date
  | timestamp => exact alike_map (Value.readTimestamp text) fun _ => .timestamp
  | real | bytea | timestampTz | array | tuple | nothing => simp [bothWays] at listed

/-- Binding a text and reading it as a cell agree: one succeeds where the other does, and both
give the same value. A text that is not taken is refused. -/
theorem text_binds_as_cell_reads (text : Text) (listed : kind ∈ bothWays) :
    Param.coerce? (.text text) kind ≠ none ∧
    ((∃ w, Param.coerce? (.text text) kind = some (.ok w)) ↔
      ∃ typed, Value.decode (Column.ofKind kind) (some text) = .ok typed) ∧
    ∀ w typed, Param.coerce? (.text text) kind = some (.ok w) →
      Value.decode (Column.ofKind kind) (some text) = .ok typed → Same w typed := by
  have flat : ¬ (kind = .array ∨ kind = .tuple) := by
    rintro (rfl | rfl) <;> simp [bothWays] at listed
  have decodes : Value.decode (Column.ofKind kind) (some text) = Value.decodeScalar kind text :=
    if_neg flat
  obtain ⟨answered, accepted, same⟩ := scalar_alike text listed
  rw [decodes]
  exact ⟨answered, accepted, fun _ _ => same⟩

/-- Blanks around a numeral, its sign and its leading zeros are no matter to either. -/
theorem padded_numeral_binds_and_reads :
    let text := " +0032767 ".toList
    Kind.smallInt ∈ bothWays ∧ Param.coerce? (.text text) .smallInt = some (.ok (.int 32767)) ∧
      Value.decode (Column.ofKind .smallInt) (some text) = .ok (.smallInt 32767) ∧
      Same (.int 32767) (.smallInt 32767) := by
  intro text
  have listed : Kind.smallInt ∈ bothWays := by decide
  have binds : Param.coerce? (.text text) .smallInt = some (.ok (.int 32767)) := by rfl
  have reads : Value.decode (Column.ofKind .smallInt) (some text) = .ok (.smallInt 32767) := by rfl
  obtain ⟨-, -, same⟩ := text_binds_as_cell_reads text listed
  exact ⟨listed, binds, reads, same _ _ binds reads⟩

end SqlWire.TextCells
