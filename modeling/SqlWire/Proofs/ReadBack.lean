import Mathlib.Data.List.TakeDrop
import SqlWire.Param.Coerce
import SqlWire.Proofs.Rendering

/-! What is rendered as a SQL literal is read back as the same value. The target
is a relation between columns, bound values and typed values that mentions no
text. Both readers are measured against it: the one of a whole literal, and the
one of the bracketed literals that arrays are written in. -/
namespace SqlWire.ReadBack
open NumeralText DecimalText CalendarText QuotedText Rendering

/-- The values that a column can hold. -/
inductive Fits : Column → Param → Prop where
  | null : Fits column .null
  | bool (kind : column.kind = .boolean) : Fits column (.bool value)
  | smallInt (kind : column.kind = .smallInt) (above : -2 ^ 15 ≤ value.toInt)
      (below : value.toInt < 2 ^ 15) : Fits column (.int value)
  | integer (kind : column.kind = .integer) (above : -2 ^ 31 ≤ value.toInt)
      (below : value.toInt < 2 ^ 31) : Fits column (.int value)
  | bigInt (kind : column.kind = .bigInt) : Fits column (.int value)
  | decimal (kind : column.kind = .decimal) : Fits column (.decimal value)
  | text (kind : column.kind = .text ∨ column.kind = .json ∨ column.kind = .unknown) :
      Fits column (.text value)
  | date (kind : column.kind = .date) : Fits column (.date value)
  | timestamp (kind : column.kind = .timestamp) (ordinary : value.time.IsOrdinary) :
      Fits column (.timestamp value)
  | array (each : ∀ item ∈ items, Fits element item) :
      Fits (.array heading element) (.array items)

/-- The typed form of a bound value under a column: the same integer in the width
of the column, the same items in the same order, and otherwise the value itself. -/
inductive TypedForm : Column → Param → Value → Prop where
  | null : TypedForm column .null .null
  | bool (kind : column.kind = .boolean) : TypedForm column (.bool value) (.bool value)
  | smallInt (kind : column.kind = .smallInt) (same : typed.toInt = value.toInt) :
      TypedForm column (.int value) (.smallInt typed)
  | integer (kind : column.kind = .integer) (same : typed.toInt = value.toInt) :
      TypedForm column (.int value) (.int typed)
  | bigInt (kind : column.kind = .bigInt) : TypedForm column (.int value) (.bigInt value)
  | decimal (kind : column.kind = .decimal) : TypedForm column (.decimal value) (.decimal value)
  | text (kind : column.kind = .text ∨ column.kind = .unknown) :
      TypedForm column (.text value) (.text value)
  | json (kind : column.kind = .json) : TypedForm column (.text value) (.json value)
  | date (kind : column.kind = .date) : TypedForm column (.date value) (.date value)
  | timestamp (kind : column.kind = .timestamp) (ordinary : value.time.IsOrdinary) :
      TypedForm column (.timestamp value) (.timestamp value)
  | array {pairs : List (Param × Value)}
      (each : ∀ pair ∈ pairs, TypedForm element pair.1 pair.2) :
      TypedForm (.array heading element) (.array (pairs.map Prod.fst))
        (.array (pairs.map Prod.snd))

private theorem typed_items (each : ∀ item ∈ items, ∃ typed, TypedForm element item typed) :
    ∃ pairs : List (Param × Value), pairs.map Prod.fst = items ∧
      ∀ pair ∈ pairs, TypedForm element pair.1 pair.2 := by
  induction items with
  | nil => exact ⟨[], rfl, by simp⟩
  | cons item items ih =>
    obtain ⟨typed, form⟩ := each item List.mem_cons_self
    obtain ⟨pairs, same, forms⟩ := ih fun other member => each other (List.mem_cons_of_mem _ member)
    refine ⟨(item, typed) :: pairs, by simp [same], ?_⟩
    rintro pair (_ | ⟨_, member⟩)
    · exact form
    · exact forms pair member

/-- A column has a typed form for every value that it can hold. -/
theorem fits_typed (fits : Fits column value) : ∃ typed, TypedForm column value typed := by
  induction fits with
  | null => exact ⟨_, .null⟩
  | bool kind => exact ⟨_, .bool kind⟩
  | smallInt kind above below =>
    exact ⟨_, .smallInt kind (Int16.toInt_ofInt_of_le above below)⟩
  | integer kind above below =>
    exact ⟨_, .integer kind (Int32.toInt_ofInt_of_le above below)⟩
  | bigInt kind => exact ⟨_, .bigInt kind⟩
  | decimal kind => exact ⟨_, .decimal kind⟩
  | text kind =>
    rcases kind with text | json | unknown
    · exact ⟨_, .text (.inl text)⟩
    · exact ⟨_, .json json⟩
    · exact ⟨_, .text (.inr unknown)⟩
  | date kind => exact ⟨_, .date kind⟩
  | timestamp kind ordinary => exact ⟨_, .timestamp kind ordinary⟩
  | array each ih =>
    obtain ⟨pairs, rfl, forms⟩ := typed_items ih
    exact ⟨_, .array forms⟩

/-! ## Scalars -/

/-- What numbers and truth values are written in. -/
def NumberChar (c : Char) : Prop := c.isDigit = true ∨ c = '.' ∨ c = '-'

/-- A literal without brackets, and the value its token decodes to. -/
inductive ScalarLiteral (column : Column) : Text → Literal → Value → Prop where
  | null : ScalarLiteral column ['\\', 'N'] (.bare ['\\', 'N']) .null
  | bare (some : token ≠ []) (chars : ∀ c ∈ token, NumberChar c)
      (decodes : Value.ofToken column token = .ok typed) :
      ScalarLiteral column token (.bare token) typed
  | quoted (decodes : Value.ofToken column token = .ok typed) :
      ScalarLiteral column (Text.quote token) (.quoted token) typed

mutual

/-- The tree that the literal of a value is read into. -/
def node : Param → Literal
  | .text value => .quoted value
  | .date value => .quoted value.toText
  | .timestamp value => .quoted value.toText
  | .array items => .list (nodes items)
  | value => .bare (literalOf value)

/-- The trees that the literals of some values are read into. -/
def nodes : List Param → List Literal
  | [] => []
  | item :: items => node item :: nodes items

end

private theorem nodes_eq_map (items : List Param) : nodes items = items.map node := by
  induction items with
  | nil => rfl
  | cons item items ih => simp [nodes, ih]

private theorem integer_chars (n : Int) : ∀ c ∈ Numeral.ofInt n, NumberChar c := by
  intro c member
  unfold Numeral.ofInt at member
  split at member
  · rcases List.mem_cons.mp member with minus | digit
    · exact .inr (.inr minus)
    · exact .inl (numeral_digits _ c digit)
  · exact .inl (numeral_digits _ c member)

private theorem integer_not_empty (n : Int) : Numeral.ofInt n ≠ [] := by
  unfold Numeral.ofInt
  split
  · simp
  · exact numeral_not_empty _

private theorem decimal_not_empty (d : Decimal) : d.toText ≠ [] := by
  obtain ⟨c, rest, same, -⟩ := body_starts d
  rw [decimal_text, same]
  split <;> simp

private theorem number_char_not_blank (char : NumberChar c) : Text.isBlank c = false := by
  rcases char with digit | rfl | rfl
  · exact digit_not_blank digit
  · decide
  · decide

theorem integer_trimmed (n : Int) : Text.trim (Numeral.ofInt n) = Numeral.ofInt n :=
  Text.trim_eq_self_of_all fun c member => number_char_not_blank (integer_chars n c member)

/-- A value that does not nest is written as a single token, which decodes to its
typed form. -/
theorem scalar_literal (form : TypedForm column value typed)
    (scalar : ∀ items, value ≠ .array items) :
    ScalarLiteral column (literalOf value) (node value) typed := by
  cases form with
  | null => exact .null
  | @bool _ value kind =>
    cases value with
    | false =>
      refine .bare (by simp [literalOf]) (fun c member => .inl ?_) ?_
      · simp_all [literalOf]
      · simp [Value.ofToken, kind, Value.decodeScalar, literalOf]
        rfl
    | true =>
      refine .bare (by simp [literalOf]) (fun c member => .inl ?_) ?_
      · simp_all [literalOf]
      · simp [Value.ofToken, kind, Value.decodeScalar, literalOf]
        rfl
  | smallInt kind same =>
    refine .bare (integer_not_empty _) (integer_chars _) ?_
    simp [literalOf, ← same, Value.ofToken, kind, Value.decodeScalar, integer_trimmed,
      read_int16_numeral, Value.refuse, Except.map, Except.mapError]
  | integer kind same =>
    refine .bare (integer_not_empty _) (integer_chars _) ?_
    simp [literalOf, ← same, Value.ofToken, kind, Value.decodeScalar, integer_trimmed,
      read_int32_numeral, Value.refuse, Except.map, Except.mapError]
  | bigInt kind =>
    refine .bare (integer_not_empty _) (integer_chars _) ?_
    simp [literalOf, Value.ofToken, kind, Value.decodeScalar, integer_trimmed,
      read_int64_numeral, Value.refuse, Except.map, Except.mapError]
  | decimal kind =>
    refine .bare (decimal_not_empty _) (decimal_chars _) ?_
    simp [Value.ofToken, kind, Value.decodeScalar, literalOf, Value.readDecimal,
      read_decimal_text, Value.refuse, Except.map, Except.mapError]
  | text kind =>
    refine .quoted ?_
    rcases kind with text | unknown
    · simp [Value.ofToken, text, Value.decodeScalar]
    · simp [Value.ofToken, unknown, Value.decodeScalar]
  | json kind => exact .quoted (by simp [Value.ofToken, kind, Value.decodeScalar])
  | @date _ value kind =>
    rw [date_quoted]
    refine .quoted ?_
    have trimmed := Text.trim_eq_self_of_all (date_not_blank value)
    simp [Value.ofToken, kind, Value.decodeScalar, Value.readDate, trimmed, read_day_text,
      Value.refuse, Except.map, Except.mapError]
  | timestamp kind ordinary =>
    rw [stamp_quoted]
    refine .quoted ?_
    simp [Value.ofToken, kind, Value.decodeScalar, Value.readTimestamp, stamp_trimmed,
      read_stamp_text _ ordinary, Value.refuse, Except.map, Except.mapError]
  | array each => exact absurd rfl (scalar _)

/-- A comma or the closing bracket stands next, or nothing does. -/
def ItemEnds (rest : Text) : Prop := ∀ c ∈ rest.head?, c = ',' ∨ c = ']'

/-- A character of a bare token, wherever in the token it stands. -/
def BareChar (c : Char) : Prop :=
  Text.isBlank c = false ∧ Literal.endsBare c = false ∧ c ∉ ['[', '(', '\'', '"']

private theorem number_bare (char : NumberChar c) : BareChar c := by
  refine ⟨number_char_not_blank char, ?_, ?_⟩
  · rcases char with digit | rfl | rfl
    · have apart := digit_not_mem digit [',', ']', ')'] rfl
      simp only [List.mem_cons, List.not_mem_nil, or_false, not_or] at apart
      simp [Literal.endsBare, apart]
    · decide
    · decide
  · rcases char with digit | rfl | rfl
    · exact digit_not_mem digit _ rfl
    · decide
    · decide

/-- A bare token is read up to where the item ends. -/
theorem bare_reads (some : token ≠ []) (chars : ∀ c ∈ token, BareChar c)
    (ends : ItemEnds rest) (depth : Nat) :
    Literal.readNode (depth + 1) (token ++ rest) = .ok (.bare token, rest) := by
  have trimmed : Text.trim token = token :=
    Text.trim_eq_self_of_all fun c member => (chars c member).1
  have taken : (token ++ rest).takeWhile (fun c => !Literal.endsBare c) = token := by
    rw [List.takeWhile_append_of_pos fun c member => by simp [(chars c member).2.1]]
    cases rest with
    | nil => simp
    | cons c rest => rcases ends c rfl with rfl | rfl <;> simp [Literal.endsBare]
  have left : (token ++ rest).dropWhile (fun c => !Literal.endsBare c) = rest := by
    rw [List.dropWhile_append_of_pos fun c member => by simp [(chars c member).2.1]]
    cases rest with
    | nil => simp
    | cons c rest => rcases ends c rfl with rfl | rfl <;> simp [Literal.endsBare]
  obtain ⟨c, others, rfl⟩ := List.exists_cons_of_ne_nil some
  obtain ⟨solid, -, opens⟩ := chars c List.mem_cons_self
  simp only [List.mem_cons, List.not_mem_nil, or_false, not_or] at opens
  obtain ⟨noList, noGroup, noString, noIdentifier⟩ := opens
  rw [List.cons_append] at taken left ⊢
  rw [Literal.readNode, Text.trimStart_eq_self (by simpa using solid)]
  simp [noList, noGroup, noString, noIdentifier, List.span_eq_takeWhile_dropWhile, taken, left,
    trimmed]

/-- The literal of a scalar is read as its token. -/
theorem scalar_reads (scalar : ScalarLiteral column text literal typed) (ends : ItemEnds rest)
    (depth : Nat) : Literal.readNode (depth + 1) (text ++ rest) = .ok (literal, rest) := by
  cases scalar with
  | null => exact bare_reads (by simp) (by simp [BareChar]; decide) ends depth
  | bare some chars _ =>
    exact bare_reads some (fun c member => number_bare (chars c member)) ends depth
  | @quoted token _ =>
    have unquoted : rest.head? ≠ some '\'' := by
      intro quote
      rcases ends _ quote with same | same <;> cases same
    have body := read_quoted_body token unquoted
    rw [Literal.readNode, Text.trimStart_eq_self (by simp [Text.quote]; decide)]
    simp [Text.quote, body, Except.map]

private theorem number_not_n (char : NumberChar c) : c.toLower ≠ 'n' := by
  rcases char with digit | rfl | rfl
  · rw [digit_lower digit]
    exact digit_ne digit (by decide)
  · decide
  · decide

/-- A number is not mistaken for the null marker. -/
theorem number_not_null (some : token ≠ []) (chars : ∀ c ∈ token, NumberChar c) :
    (Literal.bare token).isNull = false := by
  obtain ⟨c, others, rfl⟩ := List.exists_cons_of_ne_nil some
  have first := number_not_n (chars c List.mem_cons_self)
  have escape : c ≠ '\\' := by
    rintro rfl
    have := chars '\\' List.mem_cons_self
    revert this
    simp [NumberChar]
  simp [Literal.isNull, Text.sameFolded, Text.fold, first, escape]

/-- The token of a scalar decodes to its typed form. -/
theorem scalar_decodes (scalar : ScalarLiteral column text literal typed) :
    Value.ofLiteral column literal = .ok typed := by
  cases scalar with
  | null => simp [Value.ofLiteral, Literal.isNull]
  | bare some chars decodes => simp [Value.ofLiteral, number_not_null some chars, decodes]
  | quoted decodes => simpa [Value.ofLiteral] using decodes

private theorem decode_text_of_token (decodes : Value.ofToken column token = .ok typed) :
    Value.decodeText column token = .ok typed := by
  unfold Value.ofToken at decodes
  split at decodes
  · cases decodes
  next flat => simpa [Value.decodeText, flat] using decodes

private theorem quote_trimmed (token : Text) : Text.trim (Text.quote token) = Text.quote token := by
  have quote : Text.isBlank '\'' = false := by decide
  apply Text.trim_eq_self
  · rintro c ⟨⟩
    exact quote
  · intro c last
    rw [Text.quote, List.getLast?_concat] at last
    cases last
    exact quote

/-- The literal of a scalar is read back as the typed form of the scalar. -/
theorem scalar_read_back (scalar : ScalarLiteral column text literal typed) :
    Param.readLiteral text column = .ok typed := by
  cases scalar with
  | null =>
    have trimmed : Text.trim ['\\', 'N'] = ['\\', 'N'] := by decide
    simp [Param.readLiteral, trimmed]
  | bare some chars decodes =>
    have trimmed : Text.trim text = text :=
      Text.trim_eq_self_of_all fun c member => number_char_not_blank (chars c member)
    obtain ⟨c, others, rfl⟩ := List.exists_cons_of_ne_nil some
    have first := chars c List.mem_cons_self
    have escape : c ≠ '\\' := by
      rintro rfl
      simp [NumberChar] at first
    have quote : '\'' ≠ c := by
      rintro rfl
      simp [NumberChar] at first
    simp [Param.readLiteral, trimmed, escape, Text.dropLead?, quote, Value.decode,
      decode_text_of_token decodes]
  | @quoted token _ decodes =>
    have inner : (Text.dropLead? ['\''] (Text.quote token)).bind (Text.dropLast? '\'') =
        some (Text.quoteBody token) := by
      simp [Text.quote, Text.dropLead?, Text.dropLast?]
    have marked : Text.quote token ≠ ['\\', 'N'] := by simp [Text.quote]
    simp [Param.readLiteral, quote_trimmed, marked, inner, unquote_quote_body, Value.decode,
      decode_text_of_token decodes]

/-! ## Arrays -/

/-- The characters of a joined text are no fewer than those of a piece of it. -/
theorem piece_fits (glue : Text) (member : piece ∈ pieces) :
    piece.length ≤ (Text.joinWith glue pieces).length := by
  fun_induction Text.joinWith glue pieces with
  | case1 => cases member
  | case2 last => simp_all
  | case3 first next others ih =>
    rcases List.mem_cons.mp member with rfl | later
    · simp only [List.length_append]
      omega
    · have := ih later
      simp only [List.length_append]
      omega

/-- Every piece but the last is followed by a comma. -/
theorem commas_fit (pieces : List Text) :
    pieces.length ≤ (Text.joinWith [','] pieces).length + 1 := by
  fun_induction Text.joinWith [','] pieces with
  | case1 => simp
  | case2 last => simp
  | case3 first next others ih =>
    simp only [List.length_append, List.length_cons] at ih ⊢
    omega

section Items

variable {item : Text → Except Literal.Fault (Literal × Text)} {text : α → Text}
  {tree : α → Literal} {items : List α}

/-- Items that are read one by one are read one after the other. -/
theorem items_read (some : items ≠ [])
    (each : ∀ a ∈ items, ∀ rest, ItemEnds rest → item (text a ++ rest) = .ok (tree a, rest))
    (room : items.length ≤ within.length) (rest : Text) :
    Literal.readMore item ']' within (Text.joinWith [','] (items.map text) ++ ']' :: rest) =
      .ok (items.map tree, rest) := by
  induction items generalizing within with
  | nil => exact absurd rfl some
  | cons a others ih =>
    cases within with
    | nil => simp at room
    | cons w within =>
      have first := each a List.mem_cons_self
      cases others with
      | nil =>
        have reads := first (']' :: rest) (by simp [ItemEnds])
        have trimmed : Text.trimStart (']' :: rest) = ']' :: rest :=
          Text.trimStart_eq_self (by simp; decide)
        simp [Literal.readMore, Text.joinWith, reads, trimmed, bind, Except.bind]
      | cons next others =>
        obtain ⟨behind, rejoined⟩ : ∃ behind : Text,
            Text.joinWith [','] ((next :: others).map text) ++ ']' :: rest = behind := ⟨_, rfl⟩
        have reads := first (',' :: behind) (by simp [ItemEnds])
        have trimmed : Text.trimStart (',' :: behind) = ',' :: behind :=
          Text.trimStart_eq_self (by simp; decide)
        have more : Literal.readMore item ']' within behind = .ok (_, rest) :=
          rejoined ▸ ih (by simp) (fun b member => each b (List.mem_cons_of_mem _ member))
            (by simpa using room)
        have joined : Text.joinWith [','] ((a :: next :: others).map text) ++ ']' :: rest =
            text a ++ ',' :: behind := by
          simp [← rejoined, Text.joinWith]
        rw [joined, Literal.readMore, reads]
        simp [trimmed, more, bind, Except.bind]

/-- A sequence is read whole, blanks before its first item being none. -/
theorem sequence_reads
    (starts : ∀ a ∈ items, ∃ c others, text a = c :: others ∧ Text.isBlank c = false ∧ c ≠ ']')
    (each : ∀ a ∈ items, ∀ rest, ItemEnds rest → item (text a ++ rest) = .ok (tree a, rest))
    (rest : Text) :
    Literal.readItems item ']' (Text.joinWith [','] (items.map text) ++ ']' :: rest) =
      .ok (items.map tree, rest) := by
  cases items with
  | nil =>
    have trimmed : Text.trimStart (']' :: rest) = ']' :: rest :=
      Text.trimStart_eq_self (by simp; decide)
    simp [Literal.readItems, Text.joinWith, trimmed]
  | cons a items =>
    obtain ⟨c, others, begins, solid, opens⟩ := starts a List.mem_cons_self
    obtain ⟨behind, joined⟩ : ∃ behind : Text,
        Text.joinWith [','] ((a :: items).map text) ++ ']' :: rest = c :: behind := by
      cases items <;> simp [Text.joinWith, begins]
    have room : (a :: items).length ≤ (c :: behind).length := by
      have := commas_fit ((a :: items).map text)
      rw [List.length_map] at this
      rw [← joined, List.length_append]
      simp only [List.length_cons] at this ⊢
      omega
    have more := items_read (by simp) each room rest
    have trimmed : Text.trimStart (c :: behind) = c :: behind :=
      Text.trimStart_eq_self (by simpa using solid)
    rw [joined] at more ⊢
    simp [Literal.readItems, trimmed, opens, more]

end Items

private theorem scalar_starts (scalar : ScalarLiteral column text literal typed) :
    ∃ c rest, text = c :: rest ∧ Text.isBlank c = false ∧ c ≠ ']' := by
  cases scalar with
  | null => exact ⟨'\\', ['N'], rfl, by decide, by decide⟩
  | bare some chars _ =>
    obtain ⟨c, rest, rfl⟩ := List.exists_cons_of_ne_nil some
    obtain ⟨solid, ends, -⟩ := number_bare (chars c List.mem_cons_self)
    refine ⟨c, rest, rfl, solid, ?_⟩
    rintro rfl
    exact absurd ends (by decide)
  | quoted => exact ⟨'\'', _, rfl, by decide, by decide⟩

/-- No literal begins with a blank or with the end of a list. -/
theorem typed_starts (form : TypedForm column value typed) :
    ∃ c rest, literalOf value = c :: rest ∧ Text.isBlank c = false ∧ c ≠ ']' := by
  by_cases array : ∃ items, value = .array items
  · obtain ⟨items, rfl⟩ := array
    exact ⟨'[', _, by rw [literalOf]; rfl, by decide, by decide⟩
  · exact scalar_starts (scalar_literal form fun items same => array ⟨items, same⟩)

/-- The tree of a literal is found by every reader that is given the depth for
it, and denotes the typed form. -/
def ReadsAs (column : Column) (value : Param) (typed : Value) : Prop :=
  (∀ rest depth, ItemEnds rest → (literalOf value).length ≤ depth →
    Literal.readNode depth (literalOf value ++ rest) = .ok (node value, rest)) ∧
  Value.ofLiteral column (node value) = .ok typed

private theorem scalar_reads_as (form : TypedForm column value typed)
    (scalar : ∀ items, value ≠ .array items) : ReadsAs column value typed := by
  have literal := scalar_literal form scalar
  refine ⟨fun rest depth ends room => ?_, scalar_decodes literal⟩
  cases depth with
  | zero =>
    obtain ⟨c, others, same, -⟩ := scalar_starts literal
    rw [same] at room
    cases room
  | succ depth => exact scalar_reads literal ends depth

private theorem items_decode {pairs : List (Param × Value)}
    (each : ∀ pair ∈ pairs, Value.ofLiteral element (node pair.1) = .ok pair.2) :
    Value.ofItems element ((pairs.map Prod.fst).map node) = .ok (pairs.map Prod.snd) := by
  induction pairs with
  | nil => simp [Value.ofItems]
  | cons pair pairs ih =>
    have others := ih fun other member => each other (List.mem_cons_of_mem _ member)
    simp [-List.map_map, Value.ofItems, each pair List.mem_cons_self, others, bind, Except.bind]

/-- Literals are read as trees that denote what their values do, at every depth of
nesting. -/
theorem literal_reads (form : TypedForm column value typed) : ReadsAs column value typed := by
  induction form with
  | null => exact scalar_reads_as .null (by simp)
  | bool kind => exact scalar_reads_as (.bool kind) (by simp)
  | smallInt kind same => exact scalar_reads_as (.smallInt kind same) (by simp)
  | integer kind same => exact scalar_reads_as (.integer kind same) (by simp)
  | bigInt kind => exact scalar_reads_as (.bigInt kind) (by simp)
  | decimal kind => exact scalar_reads_as (.decimal kind) (by simp)
  | text kind => exact scalar_reads_as (.text kind) (by simp)
  | json kind => exact scalar_reads_as (.json kind) (by simp)
  | date kind => exact scalar_reads_as (.date kind) (by simp)
  | timestamp kind ordinary => exact scalar_reads_as (.timestamp kind ordinary) (by simp)
  | @array element heading pairs each ih =>
    constructor
    · intro rest depth ends room
      rw [literalOf, literals_eq_map] at room ⊢
      cases depth with
      | zero => simp at room
      | succ depth =>
        have starts : ∀ item ∈ pairs.map Prod.fst,
            ∃ c others, literalOf item = c :: others ∧ Text.isBlank c = false ∧ c ≠ ']' := by
          intro item member
          obtain ⟨pair, here, rfl⟩ := List.mem_map.mp member
          exact typed_starts (each pair here)
        have reads : ∀ item ∈ pairs.map Prod.fst, ∀ rest, ItemEnds rest →
            Literal.readNode depth (literalOf item ++ rest) = .ok (node item, rest) := by
          intro item member rest ends
          obtain ⟨pair, here, rfl⟩ := List.mem_map.mp member
          apply (ih pair here).1 rest depth ends
          have piece := piece_fits [','] (List.mem_map_of_mem (f := literalOf) member)
          simp only [List.length_cons, List.length_append] at room
          omega
        have sequence := sequence_reads starts reads rest
        have trimmed : Text.trimStart ('[' :: (Text.joinWith [',']
            ((pairs.map Prod.fst).map literalOf) ++ ']' :: rest)) = _ :=
          Text.trimStart_eq_self (by simp; decide)
        rw [node, nodes_eq_map]
        simp [-List.map_map, Literal.readNode, trimmed, sequence, Except.map]
    · have items := items_decode fun pair member => (ih pair member).2
      have kind : (Column.array heading element).kind = .array := rfl
      have held : (Column.array heading element).element = element := rfl
      simp [-List.map_map, node, nodes_eq_map, Value.ofLiteral, kind, held, items, Except.map]

private theorem list_trimmed (inside : Text) :
    Text.trim ('[' :: inside ++ [']']) = '[' :: inside ++ [']'] := by
  apply Text.trim_eq_self
  · rintro c ⟨⟩
    decide
  · intro c last
    rw [List.getLast?_concat] at last
    cases last
    decide

private theorem list_read_back (form : TypedForm column (.array items) typed) :
    Param.readLiteral (literalOf (.array items)) column = .ok typed := by
  obtain ⟨reads, decodes⟩ := literal_reads form
  have whole := reads [] _ (by simp [ItemEnds]) (Nat.le_succ _)
  rw [List.append_nil] at whole
  have nested : column.kind = .array := by
    cases form
    rfl
  have shape : (literalOf (.array items)) =
      '[' :: Text.joinWith [','] (literalsOf items) ++ [']'] := by rw [literalOf]
  have tree : Literal.read (literalOf (.array items)) = .ok (node (.array items)) := by
    rw [Literal.read, shape, list_trimmed, ← shape]
    simp [whole, Text.trimStart, bind, Except.bind]
  have marked : (literalOf (.array items)) ≠ ['\\', 'N'] := by simp [shape]
  have unquoted : Text.dropLead? ['\''] (literalOf (.array items)) = none := by
    simp [shape, Text.dropLead?]
  have trimmed : Text.trim (literalOf (.array items)) = (literalOf (.array items)) := by
    rw [shape, list_trimmed]
  simp [Param.readLiteral, trimmed, marked, unquoted, Value.decode, Value.decodeText, nested, tree,
    decodes]

/-- A value is read back from its literal as its typed form, whichever of the two
readers is in charge. -/
theorem typed_read_back (form : TypedForm column value typed) :
    Param.readLiteral (literalOf value) column = .ok typed := by
  by_cases array : ∃ items, value = .array items
  · obtain ⟨items, rfl⟩ := array
    exact list_read_back form
  · exact scalar_read_back (scalar_literal form fun items same => array ⟨items, same⟩)

theorem rendered_read_back (form : TypedForm column value typed)
    (rendered : value.render? = some literal) : Param.readLiteral literal column = .ok typed := by
  rw [((rendered_iff value literal).mp rendered).2]
  exact typed_read_back form

theorem typed_unique (form : TypedForm column value typed) (other : Value) :
    TypedForm column value other ↔ other = typed := by
  constructor
  · intro another
    exact Except.ok.inj ((typed_read_back another).symm.trans (typed_read_back form))
  · rintro rfl
    exact form

/-- A value that a column can hold has one typed form there, which is read back from its literal.
There is no literal just where a decimal below one in the value has more places than zeros can
fill. -/
theorem render_reads_back (fits : Fits column value) :
    ∃ typed, (∀ other, TypedForm column value other ↔ other = typed) ∧
      (value.render? = none ↔ TooDeep value) ∧
      ∀ literal, value.render? = some literal → Param.readLiteral literal column = .ok typed := by
  obtain ⟨typed, form⟩ := fits_typed fits
  exact ⟨typed, typed_unique form, not_rendered_iff, fun _ => rendered_read_back form⟩

/-- Words that stand for null elsewhere, quotes and brackets stay text, and an
empty list stays apart from null. -/
theorem nested_texts_read_back :
    let column := Column.arrayOf (Column.arrayOf (Column.ofKind .text))
    let value := Param.array [.array [.text ['N', 'U', 'L', 'L'], .text ['\\', 'N'], .null],
      .null, .array [], .array [.text ['\'', ']', ',', '\x00']]]
    Fits column value ∧ ∃ literal typed, value.render? = some literal ∧
      Param.readLiteral literal column = .ok typed ∧
      ∀ other, TypedForm column value other ↔ other = typed := by
  intro column value
  have held : ∀ text, Fits (Column.ofKind .text) (.text text) := fun _ => .text (.inl rfl)
  have fits : Fits column value := by
    refine .array fun item member => ?_
    simp only [List.mem_cons, List.not_mem_nil, or_false] at member
    rcases member with rfl | rfl | rfl | rfl
    · refine .array fun item member => ?_
      simp only [List.mem_cons, List.not_mem_nil, or_false] at member
      rcases member with rfl | rfl | rfl
      · exact held _
      · exact held _
      · exact .null
    · exact .null
    · exact .array (by simp)
    · exact .array (by simp [held])
  obtain ⟨typed, unique, -, back⟩ := render_reads_back fits
  have rendered : value.render? = some _ := rfl
  exact ⟨fits, _, typed, rendered, back _ rendered, unique⟩

/-- A zero with one place more than zeros can fill suits a column of decimals, but has no literal to
be read back from. -/
theorem deep_zero_has_no_literal :
    Fits (Column.ofKind .decimal) (.decimal ⟨0, 65536⟩) ∧
      Param.render? (.decimal ⟨0, 65536⟩) = none := by
  refine ⟨.decimal rfl, ?_⟩
  rw [Param.render?, deep_zero_hidden]

end SqlWire.ReadBack
