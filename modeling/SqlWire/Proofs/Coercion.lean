import SqlWire.Proofs.ReadBack
import SqlWire.Proofs.WholeDecimals

/-! What a column of a kind takes bound values for. The conversions there are stand in one
table, and coercion gives what the table has and refuses the rest. What it gives is a value
the column stores, which is taken as it is when bound again, and which is read back from its
literal under that column. A refusal shows the value, and where that cannot be displayed there
is no answer. -/
namespace SqlWire.Coercion
open CalendarGrammar NumeralText DecimalGrammar Rendering WholeDecimals Outcomes ReadBack

/-! ## The table -/

/-- The kinds that store text. -/
def StoresText (target : Kind) : Prop := target = .text ∨ target = .json ∨ target = .unknown

/-- The kinds that store floating-point numbers. -/
def StoresFloat (target : Kind) : Prop := target = .real ∨ target = .double

/-- What a column of a kind takes a value for. -/
inductive Converts (target : Kind) : Param → Param → Prop where
  | null : Converts target .null .null
  | bool (kind : target = .boolean) : Converts target (.bool value) (.bool value)
  | word (kind : target = .boolean) (reads : Value.readBool? text = some value) :
      Converts target (.text text) (.bool value)
  | int (width : IntegerKind) (kind : target = width.kind) (held : width.Holds n.toInt) :
      Converts target (.int n) (.int n)
  | whole (width : IntegerKind) (kind : target = width.kind) (number : rational d = n.toInt)
      (held : width.Holds n.toInt) : Converts target (.decimal d) (.int n)
  | numeral (width : IntegerKind) (kind : target = width.kind)
      (written : Writes (Text.trim text) n.toInt) (held : width.Holds n.toInt) :
      Converts target (.text text) (.int n)
  | nearest (kind : StoresFloat target) :
      Converts target (.int n) (.float (Float.ofInt n.toInt))
  | float (kind : StoresFloat target) : Converts target (.float x) (.float x)
  | rounded (kind : StoresFloat target) (reads : d.toFloat? = some x) :
      Converts target (.decimal d) (.float x)
  | floatText (kind : StoresFloat target) (reads : Value.readFloat? text = some x) :
      Converts target (.text text) (.float x)
  | integer (kind : target = .decimal) :
      Converts target (.int n) (.decimal (Decimal.ofInt n.toInt))
  | decimal (kind : target = .decimal) : Converts target (.decimal d) (.decimal d)
  | decimalText (kind : target = .decimal) (reads : Decimal.ofText text = .ok d) :
      Converts target (.text text) (.decimal d)
  | plain (kind : StoresText target) (shown : Param.plainText? value = some (some text)) :
      Converts target value (.text text)
  | date (kind : target = .date) : Converts target (.date day) (.date day)
  | dateText (kind : target = .date) (reads : Calendar.readDay (Text.trim text) = .ok day) :
      Converts target (.text text) (.date day)
  | timestamp (kind : target = .timestamp) : Converts target (.timestamp stamp) (.timestamp stamp)
  | midnight (kind : target = .timestamp) :
      Converts target (.date day) (.timestamp ⟨day, Time.midnight⟩)
  | stampText (kind : target = .timestamp)
      (reads : Calendar.readStamp (Text.trim text) = .ok stamp) :
      Converts target (.text text) (.timestamp stamp)
  | array (kind : target = .array) : Converts target (.array items) (.array items)

/-! ## What is given stands in the table -/

/-- What the table has no conversion for is refused if it can be shown. -/
inductive Outcome (target : Kind) (value : Param) : Param.Coerced → Prop where
  | taken (converts : Converts target value w) : Outcome target value (some (.ok w))
  | refused (shown : ¬ TooDeep value) : Outcome target value (some (.error fault))
  | unanswered (deep : TooDeep value) : Outcome target value none

theorem not_shown_iff : Param.shown? value = none ↔ TooDeep value := by
  cases value with
  | decimal d =>
    rw [decimal_too_deep, Param.shown?, Param.plainText?]
    cases d.display? <;> simp
  | null | array => exact not_rendered_iff
  | bool | int | float | text | date | timestamp =>
    exact iff_of_false (by simp [Param.shown?, Param.plainText?])
      (scalar_not_deep (by rintro d ⟨⟩))

private theorem reject_outcome (value : Param) (kind : Kind) (reason : ConversionReason) :
    Outcome target value (Param.reject? value kind reason) := by
  rw [Param.reject?]
  cases shown : value.shown? with
  | none => exact .unanswered (not_shown_iff.mp shown)
  | some text => exact .refused fun deep => by simp [not_shown_iff.mpr deep] at shown

/-- A text can always be shown. -/
theorem text_outcome (reading : Except ConversionFault Param)
    (converts : ∀ w, reading = .ok w → Converts target (.text text) w) :
    Outcome target (.text text) (some reading) := by
  cases reading with
  | ok w => exact .taken (converts w rfl)
  | error fault => exact .refused (scalar_not_deep (by rintro d ⟨⟩))

private theorem within_kind_outcome (width : IntegerKind) {n : Int64}
    (converts : width.Holds n.toInt → Converts width.kind value (.int n)) :
    Outcome width.kind value (Param.withinKind? value width.kind n) := by
  rw [Param.withinKind?]
  split
  next fits => exact .taken (converts ((width.fits_iff n).mp fits))
  · exact reject_outcome ..

private theorem to_boolean_outcome (value : Param) :
    Outcome .boolean value (Param.toBoolean? value) := by
  unfold Param.toBoolean?
  split
  · exact .taken (.bool rfl)
  · split
    next reads => exact .taken (.word rfl reads)
    · exact reject_outcome ..
  all_goals exact reject_outcome ..

private theorem to_integer_outcome (width : IntegerKind) (value : Param) :
    Outcome width.kind value (Param.toInteger? width.kind value) := by
  unfold Param.toInteger?
  split
  · exact within_kind_outcome width (.int width rfl)
  next d =>
    split
    · exact reject_outcome ..
    next whole =>
      split
      next n truncated =>
        have number := (whole_int64_iff d n).mp ⟨by simpa using whole, truncated⟩
        exact within_kind_outcome width (.whole width rfl number)
      · exact reject_outcome ..
  · split
    next n reads =>
      exact within_kind_outcome width (.numeral width rfl ((read_int64_iff n).mp reads))
    · exact reject_outcome ..
  · exact reject_outcome ..

private theorem to_float_outcome (kind : StoresFloat target) (value : Param) :
    Outcome target value (Param.toFloat? target value) := by
  unfold Param.toFloat?
  split
  · exact .taken (.nearest kind)
  · exact .taken (.float kind)
  next d =>
    -- a decimal is rounded by way of its text
    cases reads : d.toFloat? with
    | some x => exact .taken (.rounded kind reads)
    | none => exact .unanswered (decimal_too_deep.mpr (Option.map_eq_none_iff.mp reads))
  · split
    next reads => exact .taken (.floatText kind reads)
    · exact reject_outcome ..
  · exact reject_outcome ..

private theorem to_decimal_outcome (value : Param) :
    Outcome .decimal value (Param.toDecimal? value) := by
  unfold Param.toDecimal?
  split
  · exact .taken (.integer rfl)
  · exact .taken (.decimal rfl)
  · refine text_outcome _ fun w ok => ?_
    obtain ⟨d, reads, rfl⟩ := map_ok ok
    exact .decimalText rfl (read_decimal_ok.mp reads)
  · exact reject_outcome ..

private theorem to_plain_outcome (kind : StoresText target) (value : Param) :
    Outcome target value (Param.toPlain? target value) := by
  rw [Param.toPlain?]
  cases shown : value.plainText? with
  | none =>
    have hidden : Param.shown? value = none := by rw [Param.shown?, shown]; rfl
    exact .unanswered (not_shown_iff.mp hidden)
  | some plain =>
    cases plain with
    | some text => exact .taken (.plain kind shown)
    | none => exact reject_outcome ..

private theorem to_date_outcome (value : Param) : Outcome .date value (Param.toDate? value) := by
  unfold Param.toDate?
  split
  · exact .taken (.date rfl)
  · refine text_outcome _ fun w ok => ?_
    obtain ⟨day, reads, rfl⟩ := map_ok ok
    exact .dateText rfl (read_date_ok.mp reads)
  · exact reject_outcome ..

private theorem to_timestamp_outcome (value : Param) :
    Outcome .timestamp value (Param.toTimestamp? value) := by
  unfold Param.toTimestamp?
  split
  · exact .taken (.timestamp rfl)
  · exact .taken (.midnight rfl)
  · refine text_outcome _ fun w ok => ?_
    obtain ⟨stamp, reads, rfl⟩ := map_ok ok
    exact .stampText rfl (read_timestamp_ok.mp reads)
  · exact reject_outcome ..

/-- All that coercion can come to. -/
theorem coerce_outcome (value : Param) (target : Kind) :
    Outcome target value (Param.coerce? value target) := by
  unfold Param.coerce?
  split
  · exact .taken .null
  · split
    · exact to_boolean_outcome _
    · exact to_integer_outcome .small _
    · exact to_integer_outcome .middle _
    · exact to_integer_outcome .big _
    · exact to_float_outcome (.inl rfl) _
    · exact to_float_outcome (.inr rfl) _
    · exact to_decimal_outcome _
    · exact to_plain_outcome (.inl rfl) _
    · exact to_plain_outcome (.inr (.inl rfl)) _
    · exact to_plain_outcome (.inr (.inr rfl)) _
    · exact to_date_outcome _
    · exact to_timestamp_outcome _
    · split
      · exact .taken (.array rfl)
      · exact reject_outcome ..
    all_goals exact reject_outcome ..

private theorem coerce_converts (ok : Param.coerce? value target = some (.ok w)) :
    Converts target value w := by
  have outcome := coerce_outcome value target
  rw [ok] at outcome
  cases outcome with
  | taken converts => exact converts

/-- A text is taken for an integer column as the integer it writes. -/
theorem numeral_accepted_iff (width : IntegerKind) (text : Text) (w : Param) :
    Param.coerce? (.text text) width.kind = some (.ok w) ↔
      ∃ n : Int64, w = .int n ∧ Writes (Text.trim text) n.toInt ∧ width.Holds n.toInt := by
  rw [coerce_integer width _ (by simp), Param.toInteger?]
  constructor
  · intro ok
    split at ok
    next n reads =>
      obtain ⟨same, held⟩ := (within_kind_iff width _).mp ok
      exact ⟨n, same, (read_int64_iff n).mp reads, held⟩
    · exact absurd ok reject_not_ok
  · rintro ⟨n, rfl, written, held⟩
    rw [(read_int64_iff n).mpr written]
    exact (within_kind_iff width _).mpr ⟨rfl, held⟩

/-! ## What stands in the table is given -/

private theorem converts_coerces (converts : Converts target value w) :
    Param.coerce? value target = some (.ok w) := by
  cases converts with
  | null => rfl
  | bool kind | date kind | timestamp kind | midnight kind | array kind | integer kind
  | decimal kind =>
    subst kind
    rfl
  | word kind reads =>
    subst kind
    simp [Param.coerce?, Param.toBoolean?, reads]
  | int width kind held =>
    rw [kind, coerce_integer width _ (by simp)]
    exact (within_kind_iff width _).mpr ⟨rfl, held⟩
  | whole width kind number held =>
    rw [kind]
    exact (decimal_accepted_iff width _ _).mpr ⟨_, rfl, number, held⟩
  | numeral width kind written held =>
    rw [kind]
    exact (numeral_accepted_iff width _ _).mpr ⟨_, rfl, written, held⟩
  | nearest kind | float kind => rcases kind with rfl | rfl <;> rfl
  | rounded kind reads => rcases kind with rfl | rfl <;> simp [Param.coerce?, Param.toFloat?, reads]
  | floatText kind reads =>
    rcases kind with rfl | rfl <;> simp [Param.coerce?, Param.toFloat?, reads]
  | decimalText kind reads =>
    subst kind
    simp [Param.coerce?, Param.toDecimal?, read_decimal_ok.mpr reads, Except.map]
  | plain kind shown =>
    have plain : Param.coerce? value target = Param.toPlain? target value := by
      rcases kind with rfl | rfl | rfl <;> cases value <;> first | rfl | cases shown
    rw [plain, Param.toPlain?, shown]
    rfl
  | dateText kind reads =>
    subst kind
    simp [Param.coerce?, Param.toDate?, read_date_ok.mpr reads, Except.map]
  | stampText kind reads =>
    subst kind
    simp [Param.coerce?, Param.toTimestamp?, read_timestamp_ok.mpr reads, Except.map]

theorem coerce_iff : Param.coerce? value target = some (.ok w) ↔ Converts target value w :=
  ⟨coerce_converts, converts_coerces⟩

/-- There is no answer just for a value that is neither taken nor shown. -/
theorem unanswered_iff : Param.coerce? value target = none ↔
    TooDeep value ∧ ¬ ∃ w, Converts target value w := by
  have outcome := coerce_outcome value target
  simp only [← coerce_iff]
  generalize Param.coerce? value target = given at outcome
  cases outcome with
  | taken => simp
  | refused shown => simp [shown]
  | unanswered deep => simp [deep]

/-! ## What is stored -/

/-- The values, other than null, that a column of a kind stores. -/
inductive Stores (target : Kind) : Param → Prop where
  | bool (kind : target = .boolean) : Stores target (.bool value)
  | int (width : IntegerKind) (kind : target = width.kind) (held : width.Holds n.toInt) :
      Stores target (.int n)
  | float (kind : StoresFloat target) : Stores target (.float x)
  | decimal (kind : target = .decimal) : Stores target (.decimal d)
  | text (kind : StoresText target) : Stores target (.text text)
  | date (kind : target = .date) : Stores target (.date day)
  | timestamp (kind : target = .timestamp) : Stores target (.timestamp stamp)
  | array (kind : target = .array) : Stores target (.array items)

private theorem converts_stores (converts : Converts target value w) :
    value = .null ∧ w = .null ∨ value ≠ .null ∧ Stores target w := by
  cases converts with
  | null => exact .inl ⟨rfl, rfl⟩
  | plain kind shown =>
    refine .inr ⟨?_, .text kind⟩
    rintro rfl
    cases shown
  | bool kind | word kind => exact .inr ⟨by simp, .bool kind⟩
  | int width kind held => exact .inr ⟨by simp, .int width kind held⟩
  | whole width kind number held => exact .inr ⟨by simp, .int width kind held⟩
  | numeral width kind written held => exact .inr ⟨by simp, .int width kind held⟩
  | nearest kind | float kind | rounded kind | floatText kind => exact .inr ⟨by simp, .float kind⟩
  | integer kind | decimal kind | decimalText kind => exact .inr ⟨by simp, .decimal kind⟩
  | date kind | dateText kind => exact .inr ⟨by simp, .date kind⟩
  | timestamp kind | midnight kind | stampText kind => exact .inr ⟨by simp, .timestamp kind⟩
  | array kind => exact .inr ⟨by simp, .array kind⟩

private theorem stored_not_null (stores : Stores target w) : w ≠ .null := by
  rintro rfl
  cases stores

/-- What is stored is taken as it is. -/
theorem stored_converts (stores : Stores target w) : Converts target w w := by
  cases stores with
  | bool kind => exact .bool kind
  | int width kind held => exact .int width kind held
  | float kind => exact .float kind
  | decimal kind => exact .decimal kind
  | text kind => exact .plain kind rfl
  | date kind => exact .date kind
  | timestamp kind => exact .timestamp kind
  | array kind => exact .array kind

/-! ## Reading back -/

/-- Not a timestamp in a leap second. -/
def Ordinary : Param → Prop
  | .timestamp stamp => stamp.time.IsOrdinary
  | _ => True

private theorem converts_ordinary (converts : Converts target value w) (ordinary : Ordinary value) :
    Ordinary w := by
  cases converts with
  | timestamp => exact ordinary
  | midnight => exact (by decide : Time.midnight.IsOrdinary)
  | stampText kind reads => exact stamp_ordinary reads
  | _ => trivial

/-- A column without floating-point numbers and nesting can hold what it stores. -/
theorem stored_fits (stores : Stores target w) (ordinary : Ordinary w)
    (exact : target ≠ .real ∧ target ≠ .double ∧ target ≠ .array) :
    Fits (Column.ofKind target) w := by
  obtain ⟨real, double, array⟩ := exact
  cases stores with
  | bool kind => exact .bool kind
  | int width kind held =>
    cases width with
    | small => exact .smallInt kind held.1 held.2
    | middle => exact .integer kind held.1 held.2
    | big => exact .bigInt kind
  | float kind => exact (kind.elim real double).elim
  | decimal kind => exact .decimal kind
  | text kind => exact .text kind
  | date kind => exact .date kind
  | timestamp kind => exact .timestamp kind ordinary
  | array kind => exact absurd kind array

/-- What coercion promises of its result. -/
structure Sound (value : Param) (target : Kind) (w : Param) : Prop where
  null : w = .null ↔ value = .null
  stored : w ≠ .null → Stores target w
  stable : Param.coerce? w target = some (.ok w)
  read_back : target ≠ .real ∧ target ≠ .double ∧ target ≠ .array → Ordinary value →
    ∃ typed, (∀ other, TypedForm (Column.ofKind target) w other ↔ other = typed) ∧
      (w.render? = none ↔ TooDeep w) ∧
      ∀ literal, w.render? = some literal →
        Param.readLiteral literal (Column.ofKind target) = .ok typed

private theorem fitting_read_back (fits : Fits column w) :
    ∃ typed, (∀ other, TypedForm column w other ↔ other = typed) ∧
      (w.render? = none ↔ TooDeep w) ∧
      ∀ literal, w.render? = some literal → Param.readLiteral literal column = .ok typed := by
  obtain ⟨typed, form⟩ := fits_typed fits
  exact ⟨typed, typed_unique form, not_rendered_iff, fun _ => rendered_read_back form⟩

private theorem coerced_sound (ok : Param.coerce? value target = some (.ok w)) :
    Sound value target w := by
  have converts := coerce_converts ok
  rcases converts_stores converts with ⟨rfl, rfl⟩ | ⟨full, stores⟩
  · exact ⟨Iff.rfl, fun full => absurd rfl full, rfl, fun _ _ => fitting_read_back .null⟩
  · refine ⟨iff_of_false (stored_not_null stores) full, fun _ => stores,
      converts_coerces (stored_converts stores), fun exact ordinary => ?_⟩
    exact fitting_read_back (stored_fits stores (converts_ordinary converts ordinary) exact)

/-- Numbers of every kind. -/
def IsNumber : Param → Prop
  | .int _ | .float _ | .decimal _ => True
  | _ => False

/-- A number is no truth value, not even zero or one. -/
theorem number_not_boolean (number : IsNumber value) :
    Param.coerce? value .boolean = value.shown?.map fun shown =>
      .error ⟨shown, Kind.boolean.sqlName, .numericForBoolean⟩ := by
  cases value with
  | int | float | decimal => rfl
  | _ => exact number.elim

/-- Coercion is sound and idempotent. It gives what the table of conversions has, and nothing
where that has nothing: a refusal, or no answer where a decimal in the value is too deep to be
shown. What it gives is null just for null, and otherwise a value that the kind stores, is given
again for itself, and unless it may hold floating-point numbers or is in a leap second, is read
back in its only typed form from its literal, if it has one. Numbers are refused as truth
values. -/
theorem coercion_is_sound (value : Param) (target : Kind) :
    (∀ w, Param.coerce? value target = some (.ok w) ↔ Converts target value w) ∧
    (Param.coerce? value target = none ↔ TooDeep value ∧ ¬ ∃ w, Converts target value w) ∧
    (∀ w, Param.coerce? value target = some (.ok w) → Sound value target w) ∧
    (IsNumber value → Param.coerce? value .boolean = value.shown?.map fun shown =>
      .error ⟨shown, Kind.boolean.sqlName, .numericForBoolean⟩) :=
  ⟨fun _ => coerce_iff, unanswered_iff, fun _ => coerced_sound, number_not_boolean⟩

/-- The second added to a minute is taken for its last, and the literal says so. -/
theorem added_second_is_ordinary :
    let value := Param.text " 2016-12-31T23:59:60.5 ".toList
    let day : Date := ⟨2016, 12, 31, by decide, by decide, by decide⟩
    let time : Time :=
      ⟨23, 59, 59, 500000000, by decide, by decide, by decide, by decide, by decide⟩
    Param.coerce? value .timestamp = some (.ok (.timestamp ⟨day, time⟩)) ∧
      Sound value .timestamp (.timestamp ⟨day, time⟩) ∧ IsNumber (.int 1) ∧
      Param.coerce? (.int 1) .boolean =
        some (.error ⟨['1'], Kind.boolean.sqlName, .numericForBoolean⟩) := by
  intro value day time
  have ok : Param.coerce? value .timestamp = some (.ok (.timestamp ⟨day, time⟩)) := by
    rfl
  obtain ⟨-, -, sound, -⟩ := coercion_is_sound value .timestamp
  obtain ⟨-, -, -, refused⟩ := coercion_is_sound (.int 1) .boolean
  exact ⟨ok, sound _ ok, trivial, refused trivial⟩

/-- A zero too deep to be displayed is taken for a column of decimals as it is, and has no
literal. -/
theorem deep_zero_is_taken :
    Param.coerce? (.decimal ⟨0, 65536⟩) .decimal = some (.ok (.decimal ⟨0, 65536⟩)) ∧
      Param.render? (.decimal ⟨0, 65536⟩) = none :=
  ⟨rfl, by rw [Param.render?, DecimalText.deep_zero_hidden]⟩

end SqlWire.Coercion
