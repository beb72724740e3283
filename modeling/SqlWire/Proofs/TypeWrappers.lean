import Mathlib.Data.List.Basic
import SqlWire.Proofs.TypeReading

/-! Types by the types within them. A type reads the same alone and inside another, so a column
follows from the columns of its parts, however deep these lie; and null may be added by a
wrapper or by a suffix. -/
namespace SqlWire.TypeWrappers
open SqlWire.TypeName SqlWire.TypeGrammar

/-- A text that names a column, without blanks around it. -/
structure Accepted (text : Text) (column : Column) : Prop where
  starts : ∀ c ∈ text.head?, Text.isBlank c = false
  stops : ∀ c ∈ text.getLast?, Text.isBlank c = false
  read : read? text = some column

/-- A type with a null suffix of its own, which is not that of a type within. -/
def NullSuffixed (text : Text) : Prop :=
  ∃ member : Member, text = member.text ∧ member.suffix ≠ [] ∧
    Core member.form member.core member.type

/-- Columns by the columns within them, with wrappers and null suffixes mixed at any depth. -/
inductive Nested : Text → Column → Prop where
  | accepted (accepted : Accepted text column) : Nested text column
  | nullable (inner : Nested text column) :
      Nested (called "Nullable".toList [] text) (column.orNull true)
  | array (inner : Nested text column) :
      Nested (called "Array".toList [] text) (Column.arrayOf column)
  | tuple (parts : List (Text × Column)) (some : parts ≠ [])
      (each : ∀ part ∈ parts, Nested part.1 part.2) :
      Nested (called "Tuple".toList [] (Text.joinWith ", ".toList (parts.map Prod.fst)))
        (Column.tupleOf (parts.map Prod.snd))
  | null (inner : Nested text column) (bare : ¬ NullSuffixed text) :
      Nested (text ++ " null".toList) (column.orNull true)
  | notNull (inner : Nested text column) (bare : ¬ NullSuffixed text) :
      Nested (text ++ " not null".toList) column

/-! ## Where a text begins and ends -/

/-- Only layout may stand behind the last type of a text, and no blank ends an accepted one. -/
theorem accepted_whole (accepted : Accepted text column) : Whole text column := by
  obtain ⟨whole, rest, rfl, holds, blank⟩ := read_iff.mp accepted.read
  by_cases none : rest = []
  · rwa [none, List.append_nil]
  · have last := List.getLast?_eq_some_getLast none
    rw [Text.allBlank, List.all_eq_true] at blank
    have solid := accepted.stops (rest.getLast none)
      (by rw [List.getLast?_append_of_ne_nil _ none, last]; rfl)
    rw [blank _ (List.getLast_mem none)] at solid
    cases solid

private theorem called_accepted (word : IsWord name)
    (whole : Whole (called name [] inside) column) :
    Accepted (called name [] inside) column where
  starts := by
    intro c first
    obtain ⟨d, others, rfl⟩ := List.exists_cons_of_ne_nil word.1
    cases first
    by_contra blank
    have char := word.2 c List.mem_cons_self
    rw [blank_not_word (Bool.eq_true_of_not_eq_false blank)] at char
    cases char
  stops := by
    have parts : called name [] inside = (name ++ '(' :: inside) ++ [')'] := by simp [called]
    intro c last
    rw [parts, List.getLast?_concat] at last
    cases last
    decide
  read := whole_read whole

/-- A suffix without a blank at its end leaves the beginning of a text as it is. -/
theorem suffixed_accepted (accepted : Accepted text column)
    (stops : ∀ c ∈ suffix.getLast?, Text.isBlank c = false)
    (whole : Whole (text ++ suffix) again) : Accepted (text ++ suffix) again where
  starts := by
    cases text with
    | nil =>
      have absurd := accepted.read
      cases absurd
    | cons c text => exact fun d first => accepted.starts d first
  stops := by
    intro c last
    by_cases none : suffix = []
    · rw [none, List.append_nil] at last
      exact accepted.stops c last
    · rw [List.getLast?_append_of_ne_nil _ none] at last
      exact stops c last
  read := whole_read whole

/-! ## Wrappers -/

private theorem nullable_accepted (accepted : Accepted text column) :
    Accepted (called "Nullable".toList [] text) (column.orNull true) := by
  have name : Spells "nullable".toList "Nullable".toList := by decide
  exact called_accepted (name_word (by decide) name)
    (core_whole (nullable_of_whole name layout_nil (accepted_whole accepted)))

private theorem array_accepted (accepted : Accepted text column) :
    Accepted (called "Array".toList [] text) (Column.arrayOf column) := by
  have name : Spells "array".toList "Array".toList := by decide
  exact called_accepted (name_word (by decide) name)
    (core_whole (array_of_whole name layout_nil (accepted_whole accepted)))

/-- Accepted parts as the members of a tuple. -/
theorem parts_members {parts : List (Text × Column)}
    (each : ∀ part ∈ parts, Accepted part.1 part.2) :
    ∃ members : List Member, members.map Member.text = parts.map Prod.fst ∧
      members.map Member.column = parts.map Prod.snd ∧
      ∀ member ∈ members, Core member.form member.core member.type := by
  induction parts with
  | nil => exact ⟨[], rfl, rfl, by simp⟩
  | cons part parts ih =>
    obtain ⟨first, others⟩ := List.forall_mem_cons.mp each
    obtain ⟨members, texts, columns, cores⟩ := ih others
    obtain ⟨member, text, column, core⟩ := accepted_whole first
    exact ⟨member :: members, by simp [texts, text], by simp [columns, column],
      List.forall_mem_cons.mpr ⟨core, cores⟩⟩

private theorem tuple_accepted {parts : List (Text × Column)} (some : parts ≠ [])
    (each : ∀ part ∈ parts, Accepted part.1 part.2) :
    Accepted (called "Tuple".toList [] (Text.joinWith ", ".toList (parts.map Prod.fst)))
      (Column.tupleOf (parts.map Prod.snd)) := by
  have name : Spells "tuple".toList "Tuple".toList := by decide
  obtain ⟨members, texts, columns, cores⟩ := parts_members each
  have others : members ≠ [] := by
    rintro rfl
    exact some (List.map_eq_nil_iff.mp texts.symm)
  have tuple := spread_tuple name layout_nil others cores
  rw [texts, columns] at tuple
  exact called_accepted (name_word (by decide) name) (core_whole tuple)

/-! ## Suffixes -/

/-- A null suffix ends in a word where it is there at all. -/
theorem suffix_ends (suffix : NullSuffix text allowed) :
    text = [] ∧ allowed = false ∨ ∃ front word, text = front ++ word ∧ IsWord word := by
  cases suffix with
  | absent => exact .inl ⟨rfl, rfl⟩
  | @null front last gap word => exact .inr ⟨front, last, rfl, null_word word⟩
  | @notNull front first middle last gap negation between apart word =>
    exact .inr ⟨front ++ (first ++ middle), last, by simp, null_word word⟩

/-- A text that ends in a parenthesis has no null suffix of its own. -/
theorem called_bare (name gap inside : Text) : ¬ NullSuffixed (called name gap inside) := by
  rintro ⟨member, same, some, -⟩
  have parts : called name gap inside = (name ++ (gap ++ '(' :: inside)) ++ [')'] := by
    simp [called]
  have last : (called name gap inside).getLast? = .some ')' := by
    rw [parts, List.getLast?_concat]
  obtain ⟨none, -⟩ | ⟨front, word, ends, isWord⟩ := suffix_ends member.null_suffix
  · exact some none
  have text : member.text = (member.front ++ (member.core ++ front)) ++ (word ++ member.back) := by
    simp [Member.text, ends]
  have behind : word ++ member.back ≠ [] := by simp [isWord.1]
  rw [same, text, List.getLast?_append_of_ne_nil _ behind] at last
  rcases List.mem_append.mp (List.mem_of_getLast? last) with within | within
  · have char := isWord.2 _ within
    revert char
    decide +kernel
  · have char := member.back_layout _ within
    revert char
    decide

/-- A type without a null suffix of its own takes any, behind a blank. -/
theorem suffix_whole (accepted : Accepted text column) (bare : ¬ NullSuffixed text)
    (null : ∀ gap, Layout gap → NullSuffix (gap ++ suffix) allowed) :
    Whole (text ++ ' ' :: suffix) (column.orNull allowed) := by
  obtain ⟨member, rfl, rfl, core⟩ := accepted_whole accepted
  have none : member.suffix = [] := by
    by_contra some
    exact bare ⟨member, rfl, some, core⟩
  have type : member.column = member.type := by
    obtain ⟨-, notNull⟩ | ⟨front, word, ends, isWord⟩ := suffix_ends member.null_suffix
    · rw [Member.column, notNull, or_null_false]
    · rw [none] at ends
      exact absurd (List.append_eq_nil_iff.mp ends.symm).2 isWord.1
  have layout : Layout (member.back ++ [' ']) :=
    layout_append.mpr ⟨member.back_layout, blank_layout⟩
  have apart : member.back ++ [' '] ≠ [] := by simp
  refine ⟨⟨member.front, member.core, (member.back ++ [' ']) ++ suffix, [], member.form,
    member.type, allowed, member.front_layout, layout_nil, null _ layout,
    fun _ => layout_next apart layout⟩, ?_, ?_, core⟩
  · simp [Member.text, none]
  · rw [type]
    rfl

private theorem null_accepted (accepted : Accepted text column) (bare : ¬ NullSuffixed text) :
    Accepted (text ++ " null".toList) (column.orNull true) :=
  suffixed_accepted accepted (by rintro c ⟨⟩; decide) <|
    suffix_whole accepted bare fun _ layout => .null layout (by decide)

private theorem not_null_accepted (accepted : Accepted text column) (bare : ¬ NullSuffixed text) :
    Accepted (text ++ " not null".toList) column := by
  have negation : Spells "not".toList "not".toList := by decide
  have null : Spells "null".toList "null".toList := by decide
  have whole := suffix_whole accepted bare fun _ layout =>
    .notNull layout negation blank_layout (by simp) null
  rw [or_null_false] at whole
  exact suffixed_accepted accepted (by rintro c ⟨⟩; decide) whole

/-! ## Any depth -/

private theorem nested_accepted (nested : Nested text column) : Accepted text column := by
  induction nested with
  | accepted accepted => exact accepted
  | nullable inner ih => exact nullable_accepted ih
  | array inner ih => exact array_accepted ih
  | tuple parts some each ih => exact tuple_accepted some ih
  | null inner bare ih => exact null_accepted ih bare
  | notNull inner bare ih => exact not_null_accepted ih bare

/-- A wrapper gives the column of what it wraps, a null suffix says what the wrapper says, and so
at any depth. -/
theorem wrappers_compose :
    (∀ text column, Accepted text column →
      Accepted (called "Nullable".toList [] text) (column.orNull true) ∧
      Accepted (called "Array".toList [] text) (Column.arrayOf column) ∧
      (¬ NullSuffixed text → Accepted (text ++ " null".toList) (column.orNull true) ∧
        Accepted (text ++ " not null".toList) column)) ∧
    (∀ parts : List (Text × Column), parts ≠ [] → (∀ part ∈ parts, Accepted part.1 part.2) →
      Accepted (called "Tuple".toList [] (Text.joinWith ", ".toList (parts.map Prod.fst)))
        (Column.tupleOf (parts.map Prod.snd))) ∧
    (∀ name gap inside, ¬ NullSuffixed (called name gap inside)) ∧
    ∀ text column, Nested text column → Accepted text column ∧
      ∀ name, Column.ofDeclaration name text = column.declaredAs name text := by
  refine ⟨fun text column accepted => ?_, fun parts => tuple_accepted, called_bare,
    fun text column nested => ?_⟩
  · exact ⟨nullable_accepted accepted, array_accepted accepted,
      fun bare => ⟨null_accepted accepted bare, not_null_accepted accepted bare⟩⟩
  · have accepted := nested_accepted nested
    refine ⟨accepted, fun name => ?_⟩
    rw [Column.ofDeclaration, accepted.read]
    rfl

theorem array_of_nullable_pairs :
    Column.ofDeclaration [] "Array(Tuple(Decimal(9) null, Nullable(text) not null))".toList =
      (Column.arrayOf (Column.tupleOf
        [(Column.decimalOf 9 0).orNull true, (Column.ofKind .text).orNull true])).declaredAs []
        "Array(Tuple(Decimal(9) null, Nullable(text) not null))".toList := by
  obtain ⟨-, -, bare, nested⟩ := wrappers_compose
  have decimal : Nested "Decimal(9)".toList (Column.decimalOf 9 0) :=
    .accepted ⟨by rintro c ⟨⟩; decide, by rintro c ⟨⟩; decide, by rfl⟩
  have text : Nested "text".toList (Column.ofKind .text) :=
    .accepted ⟨by rintro c ⟨⟩; decide, by rintro c ⟨⟩; decide, by rfl⟩
  have first := decimal.null (bare "Decimal".toList [] ['9'])
  have second := text.nullable.notNull (bare "Nullable".toList [] "text".toList)
  have tuple := Nested.tuple [(_, _), (_, _)] (by simp)
    (List.forall_mem_cons.mpr ⟨first, List.forall_mem_singleton.mpr second⟩)
  exact (nested _ _ tuple.array).2 []

end SqlWire.TypeWrappers
