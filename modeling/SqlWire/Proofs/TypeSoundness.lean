import SqlWire.Column.TypeName
import SqlWire.Proofs.Outcomes
import SqlWire.Rows.Row
import SqlWire.Value.Decode

/-! What a cell decodes to has the type of its column, at every depth. What a literal means
under a column is said by rules, one for each kind of node, and decoding gives just that;
the type of what is meant is read off the rules. A null mark is null under every column,
and null is a value of them all. -/
namespace SqlWire.TypeSoundness
open Outcomes

/-- The values, other than null, of a kind that does not nest. A column of nothing has
none. -/
inductive Suits : Kind → Value → Prop where
  | boolean : Suits .boolean (.bool value)
  | smallInt : Suits .smallInt (.smallInt value)
  | integer : Suits .integer (.int value)
  | bigInt : Suits .bigInt (.bigInt value)
  | real : Suits .real (.real value)
  | double : Suits .double (.double value)
  | decimal : Suits .decimal (.decimal value)
  | text : Suits .text (.text value)
  | unknown : Suits .unknown (.text value)
  | json : Suits .json (.json value)
  | bytea : Suits .bytea (.bytes value)
  | date : Suits .date (.date value)
  | timestamp : Suits .timestamp (.timestamp value)
  | timestampTz : Suits .timestampTz (.timestampTz value)

/-- The values of a column. Null is one of every column. The items of an array are all of
its element column; those of a tuple are as many as its fields, each of the field at its
place. -/
inductive Conforms : Column → Value → Prop where
  | null : Conforms column .null
  | scalar (suits : Suits column.kind value) : Conforms column value
  | array (kind : column.kind = .array) (each : ∀ item ∈ items, Conforms column.element item) :
      Conforms column (.array items)
  | tuple (kind : column.kind = .tuple) (width : items.length = column.fields.length)
      (each : ∀ pair ∈ column.fields.zip items, Conforms pair.1 pair.2) :
      Conforms column (.tuple items)

/-- A column of nothing admits only null. -/
theorem nothing_only_null (kind : column.kind = .nothing) (conforms : Conforms column value) :
    value = .null := by
  cases conforms with
  | null => rfl
  | scalar suits =>
    rw [kind] at suits
    cases suits
  | array nested => exact absurd (kind.symm.trans nested) (by decide)
  | tuple nested => exact absurd (kind.symm.trans nested) (by decide)

/-! ## Scalars -/

/-- Each scalar kind has its own variant, and only a column of nothing gives null. -/
theorem scalar_suits (ok : Value.decodeScalar kind text = .ok value) :
    Suits kind value ∨ kind = .nothing ∧ value = .null := by
  cases kind <;> simp only [Value.decodeScalar] at ok
  case boolean | real | double =>
    split at ok
    · cases ok
      exact .inl (by constructor)
    · cases ok
  case smallInt | integer | bigInt | decimal | bytea | date | timestamp | timestampTz =>
    obtain ⟨found, -, rfl⟩ := map_ok ok
    exact .inl (by constructor)
  case text | unknown | json =>
    cases ok
    exact .inl (by constructor)
  case nothing =>
    cases ok
    exact .inr ⟨rfl, rfl⟩
  case array | tuple => cases ok

private theorem scalar_conforms (ok : Value.decodeScalar column.kind text = .ok value) :
    Conforms column value := by
  rcases scalar_suits ok with suits | ⟨-, rfl⟩
  · exact .scalar suits
  · exact .null

/-! ## Nested values -/

/-- What a literal means under a column. A null mark is null everywhere. A token stands
where nothing nests; a list has an item of the array for each of its nodes, and a group a
part of the tuple for each field of the column. -/
inductive Means : Column → Literal → Value → Prop where
  | null (mark : literal.isNull = true) : Means column literal .null
  | bare (word : (Literal.bare token).isNull = false)
      (reads : Value.decodeScalar column.kind token = .ok value) :
      Means column (.bare token) value
  | quoted (reads : Value.decodeScalar column.kind token = .ok value) :
      Means column (.quoted token) value
  | list {pairs : List (Literal × Value)} (kind : column.kind = .array)
      (each : ∀ pair ∈ pairs, Means column.element pair.1 pair.2) :
      Means column (.list (pairs.map Prod.fst)) (.array (pairs.map Prod.snd))
  | group {parts : List (Column × Literal × Value)} (kind : column.kind = .tuple)
      (fields : column.fields = parts.map Prod.fst)
      (each : ∀ part ∈ parts, Means part.1 part.2.1 part.2.2) :
      Means column (.group (parts.map (·.2.1))) (.tuple (parts.map (·.2.2)))

/-- What a literal means conforms to the column it stands under. -/
theorem means_conforms (means : Means column literal value) : Conforms column value := by
  induction means with
  | null mark => exact .null
  | bare word reads => exact scalar_conforms reads
  | quoted reads => exact scalar_conforms reads
  | list kind each ih =>
    refine .array kind fun item member => ?_
    obtain ⟨pair, here, rfl⟩ := List.mem_map.mp member
    exact ih pair here
  | group kind fields each ih =>
    refine .tuple kind (by simp [fields]) fun pair member => ?_
    rw [fields, List.zip_map'] at member
    obtain ⟨part, here, rfl⟩ := List.mem_map.mp member
    exact ih part here

/-- Where columns nest, no cell and no token is a scalar. -/
theorem scalar_flat (reads : Value.decodeScalar kind text = .ok value) :
    ¬ (kind = .array ∨ kind = .tuple) := by
  rintro (rfl | rfl) <;> cases reads

theorem token_decodes_iff : Value.ofToken column token = .ok value ↔
    Value.decodeScalar column.kind token = .ok value := by
  rw [Value.ofToken]
  constructor
  · intro ok
    split at ok
    · cases ok
    · exact ok
  · intro reads
    rw [if_neg (scalar_flat reads), reads]

private theorem cons_ok {first : Except ε α} {others : Except ε (List α)}
    (ok : (do let item ← first; let items ← others; .ok (item :: items)) = .ok list) :
    ∃ item items, first = .ok item ∧ others = .ok items ∧ list = item :: items := by
  obtain ⟨item, here, ok⟩ := bind_ok ok
  obtain ⟨items, rest, same⟩ := bind_ok ok
  cases same
  exact ⟨item, items, here, rest, rfl⟩

/-- A list is decoded node by node. -/
theorem items_decode_iff (element : Column) (items : List Literal) (values : List Value) :
    Value.ofItems element items = .ok values ↔
      ∃ pairs : List (Literal × Value), pairs.map Prod.fst = items ∧
        pairs.map Prod.snd = values ∧
        ∀ pair ∈ pairs, Value.ofLiteral element pair.1 = .ok pair.2 := by
  constructor
  · intro ok
    induction items generalizing values with
    | nil =>
      cases ok
      exact ⟨[], rfl, rfl, by simp⟩
    | cons item items ih =>
      rw [Value.ofItems] at ok
      obtain ⟨value, rest, first, others, rfl⟩ := cons_ok ok
      obtain ⟨pairs, rfl, rfl, each⟩ := ih rest others
      exact ⟨(item, value) :: pairs, rfl, rfl, List.forall_mem_cons.mpr ⟨first, each⟩⟩
  · rintro ⟨pairs, rfl, rfl, each⟩
    induction pairs with
    | nil => rfl
    | cons pair pairs ih =>
      obtain ⟨here, others⟩ := List.forall_mem_cons.mp each
      rw [List.map_cons, Value.ofItems, here, ih others]
      rfl

/-- A group is decoded field by field when it has a node for each of them. -/
theorem fields_decode_iff (fields : List Column) (items : List Literal) (values : List Value) :
    items.length = fields.length ∧ Value.ofFields fields items = .ok values ↔
      ∃ parts : List (Column × Literal × Value), parts.map Prod.fst = fields ∧
        parts.map (·.2.1) = items ∧ parts.map (·.2.2) = values ∧
        ∀ part ∈ parts, Value.ofLiteral part.1 part.2.1 = .ok part.2.2 := by
  constructor
  · rintro ⟨same, ok⟩
    induction items generalizing fields values with
    | nil =>
      obtain rfl : fields = [] := List.length_eq_zero_iff.mp same.symm
      cases ok
      exact ⟨[], rfl, rfl, rfl, by simp⟩
    | cons item items ih =>
      cases fields with
      | nil => cases same
      | cons field fields =>
        rw [Value.ofFields] at ok
        obtain ⟨value, rest, first, others, rfl⟩ := cons_ok ok
        obtain ⟨parts, rfl, rfl, rfl, each⟩ := ih fields rest (Nat.succ.inj same) others
        exact ⟨(field, item, value) :: parts, rfl, rfl, rfl,
          List.forall_mem_cons.mpr ⟨first, each⟩⟩
  · rintro ⟨parts, rfl, rfl, rfl, each⟩
    refine ⟨by simp, ?_⟩
    induction parts with
    | nil => rfl
    | cons part parts ih =>
      obtain ⟨here, others⟩ := List.forall_mem_cons.mp each
      rw [List.map_cons, List.map_cons, Value.ofFields, here, ih others]
      rfl

/-- A literal that is decoded means its value: by recursion on the literal, whose nodes are
smaller than it is. -/
theorem literal_means (column : Column) (value : Value) :
    (literal : Literal) → Value.ofLiteral column literal = .ok value → Means column literal value
  | .bare token, ok => by
    rw [Value.ofLiteral] at ok
    split at ok
    next mark =>
      cases ok
      exact .null mark
    next word => exact .bare (Bool.eq_false_iff.mpr word) (token_decodes_iff.mp ok)
  | .quoted token, ok => by
    rw [Value.ofLiteral] at ok
    exact .quoted (token_decodes_iff.mp ok)
  | .list items, ok => by
    rw [Value.ofLiteral] at ok
    split at ok
    next kind =>
      obtain ⟨values, decoded, rfl⟩ := map_ok ok
      obtain ⟨pairs, same, rfl, each⟩ := (items_decode_iff _ _ _).mp decoded
      rw [← same]
      refine .list kind fun pair member => ?_
      have inside : pair.1 ∈ items := same ▸ List.mem_map_of_mem member
      exact literal_means column.element pair.2 pair.1 (each pair member)
    next => cases ok
  | .group items, ok => by
    rw [Value.ofLiteral] at ok
    split at ok
    next kind =>
      split at ok
      next width =>
        obtain ⟨values, decoded, rfl⟩ := map_ok ok
        obtain ⟨parts, fields, same, rfl, each⟩ := (fields_decode_iff _ _ _).mp ⟨width, decoded⟩
        rw [← same]
        refine .group kind fields.symm fun part member => ?_
        have inside : part.2.1 ∈ items := same ▸ List.mem_map_of_mem member
        exact literal_means part.1 part.2.2 part.2.1 (each part member)
      next => cases ok
    next => cases ok

/-- What a literal means is what it is decoded to. -/
theorem means_decodes (means : Means column literal value) :
    Value.ofLiteral column literal = .ok value := by
  induction means with
  | @null column literal mark =>
    cases literal with
    | bare token => rw [Value.ofLiteral, if_pos mark]
    | quoted | list | group => cases mark
  | bare word reads =>
    rw [Value.ofLiteral, if_neg (by simp [word])]
    exact token_decodes_iff.mpr reads
  | quoted reads =>
    rw [Value.ofLiteral]
    exact token_decodes_iff.mpr reads
  | @list column pairs kind each ih =>
    have decoded := (items_decode_iff _ _ _).mpr ⟨pairs, rfl, rfl, ih⟩
    rw [Value.ofLiteral, if_pos kind, decoded]
    rfl
  | @group column parts kind fields each ih =>
    obtain ⟨width, decoded⟩ := (fields_decode_iff _ _ _).mpr ⟨parts, fields.symm, rfl, rfl, ih⟩
    rw [Value.ofLiteral, if_pos kind, if_pos width, decoded]
    rfl

/-! ## Cells -/

/-- What a cell means under a column: the cell without text is null, and the text of an
array or a tuple is a literal. -/
inductive CellMeans (column : Column) : Option Text → Value → Prop where
  | null : CellMeans column none .null
  | scalar (reads : Value.decodeScalar column.kind text = .ok value) :
      CellMeans column (some text) value
  | nested (nests : column.kind = .array ∨ column.kind = .tuple)
      (read : Literal.read text = .ok literal) (means : Means column literal value) :
      CellMeans column (some text) value

/-- Decoding gives what a cell means, and fails when it means nothing. -/
theorem decodes_iff_means (column : Column) (cell : Option Text) (value : Value) :
    Value.decode column cell = .ok value ↔ CellMeans column cell value := by
  cases cell with
  | none =>
    rw [Value.decode]
    constructor
    · rintro ⟨⟩
      exact .null
    · rintro ⟨⟩
      rfl
  | some text =>
    rw [Value.decode, Value.decodeText]
    constructor
    · intro ok
      split at ok
      next nests =>
        split at ok
        next literal read => exact .nested nests read (literal_means column value literal ok)
        next => cases ok
      next => exact .scalar ok
    · intro means
      cases means with
      | scalar reads => rw [if_neg (scalar_flat reads), reads]
      | nested nests read means =>
        rw [if_pos nests, read]
        exact means_decodes means

theorem cell_conforms (means : CellMeans column cell value) : Conforms column value := by
  cases means with
  | null => exact .null
  | scalar reads => exact scalar_conforms reads
  | nested nests read means => exact means_conforms means

/-- Decoding is type-sound. Under every column it gives what a cell means, and fails just
when the cell means nothing; what it gives is a value of that column, for a column of
nothing null; and a cell without text, as a row's null mark is read, is null under all of
them. -/
theorem decoding_is_sound (column : Column) (cell : Option Text) :
    (∀ value, Value.decode column cell = .ok value →
      Conforms column value ∧ (column.kind = .nothing → value = .null)) ∧
      (∀ value, Value.decode column cell = .ok value ↔ CellMeans column cell value) ∧
      Value.decode column none = .ok .null ∧
      Value.decode column (Row.readCell Row.nullMark) = .ok .null := by
  refine ⟨fun value ok => ?_, decodes_iff_means column cell, rfl, rfl⟩
  have conforms := cell_conforms ((decodes_iff_means column cell value).mp ok)
  exact ⟨conforms, fun kind => nothing_only_null kind conforms⟩

/-- Nulls at each level of a declared type: an item, a field of nothing, and a whole inner
list. -/
theorem nested_nulls_conform :
    let column := Column.ofDeclaration ['c']
      "Tuple(Array(Nullable(Int32)), Nothing, Array(Array(String)))".toList
    let cell := "([1, NULL], x, [[], \\N, ['a']])".toList
    ∃ value, Value.decode column (some cell) = .ok value ∧
      value.display? = some "([1,NULL],NULL,[[],NULL,[a]])".toList ∧ Conforms column value := by
  intro column cell
  have printed : (Value.decode column (some cell)).toOption.bind Value.display? =
      some "([1,NULL],NULL,[[],NULL,[a]])".toList := by decide +kernel
  cases decoded : Value.decode column (some cell) with
  | error fault =>
    rw [decoded] at printed
    cases printed
  | ok value =>
    rw [decoded] at printed
    obtain ⟨sound, -⟩ := decoding_is_sound column (some cell)
    exact ⟨value, rfl, printed, (sound value decoded).1⟩

end SqlWire.TypeSoundness
