import Mathlib.Data.List.TakeWhile
import SqlWire.Column.TypeName
import SqlWire.Proofs.NumeralText

/-! The grammar of type names, and that the reader accepts just the texts of it. The grammar
knows no depth and no order of alternatives. What keeps it from giving a text two types is
that a name which takes arguments begins no other word, and that only what ends in no word of
its own may have a null suffix directly behind it. -/
namespace SqlWire.TypeGrammar
open SqlWire.TypeName NumeralText

/-! ## The grammar -/

/-- Layout and nothing else. -/
def Layout (gap : Text) : Prop := ∀ c ∈ gap, Text.isLayout c = true

instance : Decidable (Layout gap) :=
  decidable_of_iff (gap.all Text.isLayout = true) List.all_eq_true

/-- A text is a word in any case of its letters. -/
def Spells (word text : Text) : Prop := Text.fold text = Text.fold word

instance : Decidable (Spells word text) := inferInstanceAs (Decidable (_ = _))

/-- A word of any letters and digits. -/
def IsWord (text : Text) : Prop := text ≠ [] ∧ ∀ c ∈ text, isWordChar c = true

instance : Decidable (IsWord text) :=
  decidable_of_iff (text ≠ [] ∧ text.all isWordChar = true)
    (and_congr_right fun _ => List.all_eq_true)

/-- No word character stands next. -/
def NoWordNext (rest : Text) : Prop := ∀ c ∈ rest.head?, isWordChar c = false

/-- A number as an argument of a type. -/
structure Argument (text : Text) (n : Nat) : Prop where
  some : text ≠ []
  digits : AllDigits text
  value : Numeral.value text = n
  fits : n < 4294967296

/-- What stands between the parentheses of a decimal. -/
inductive DecimalArguments : Text → Nat × Nat → Prop where
  | precision (before : Layout front) (number : Argument digits precision)
      (behind : Layout back) :
      DecimalArguments (front ++ (digits ++ back)) (precision, 0)
  | scale (before : Layout front) (number : Argument digits precision) (gap : Layout middle)
      (next : Layout between) (places : Argument more scale) (behind : Layout back) :
      DecimalArguments (front ++ (digits ++ (middle ++ ',' :: (between ++ (more ++ back)))))
        (precision, scale)

/-- What stands between the parentheses of a timestamp. The comma of a time zone stands
directly behind the digits, and any text without a closing parenthesis is a zone. -/
inductive TimestampArguments : Text → Nat → Prop where
  | digits (before : Layout front) (number : Argument digits n) (behind : Layout back) :
      TimestampArguments (front ++ (digits ++ back)) n
  | zone (before : Layout front) (number : Argument digits n) (inside : ')' ∉ zone) :
      TimestampArguments (front ++ (digits ++ ',' :: zone)) n

/-- A null suffix, and whether it allows null. -/
inductive NullSuffix : Text → Bool → Prop where
  | absent : NullSuffix [] false
  | null (gap : Layout front) (word : Spells "null".toList last) :
      NullSuffix (front ++ last) true
  | notNull (gap : Layout front) (negation : Spells "not".toList first)
      (between : Layout middle) (apart : middle ≠ []) (word : Spells "null".toList last) :
      NullSuffix (front ++ (first ++ (middle ++ last))) false

/-- Whether the text of a type ends in a word of its own, which goes on as long as it can. -/
inductive Form where
  | words
  | closed
deriving DecidableEq, Repr

/-- A type with its null suffix, between layout. -/
structure Member where
  front : Text
  core : Text
  suffix : Text
  back : Text
  form : Form
  type : Column
  nullable : Bool
  front_layout : Layout front
  back_layout : Layout back
  null_suffix : NullSuffix suffix nullable
  apart : form = .words → NoWordNext suffix

namespace Member

def text (member : Member) : Text :=
  member.front ++ (member.core ++ (member.suffix ++ member.back))

/-- The type, with null where the suffix allows it. -/
def column (member : Member) : Column := member.type.orNull member.nullable

end Member

/-- A name and what stands in parentheses behind it. -/
def called (name gap inside : Text) : Text := name ++ (gap ++ '(' :: (inside ++ [')']))

/-- The names that take arguments and are a type without them, too. -/
def sizedNames : List Text := ["decimal".toList, "numeric".toList, "datetime64".toList]

/-- Words behind another, each with the layout before it. -/
def wordsOf (others : List (Text × Text)) : Text := others.flatMap fun (gap, word) => gap ++ word

/-- A word behind the first of a name. -/
structure Further (other : Text × Text) : Prop where
  layout : Layout other.1
  apart : other.1 ≠ []
  word : IsWord other.2
  plain : beginsSuffix other.2 = false

/-- The texts of a type, without a null suffix and without layout around it. -/
inductive Core : Form → Text → Column → Prop where
  | scalar (word : IsWord first)
      (plain : ∀ name ∈ sizedNames, ∀ word rest, first = word ++ rest → ¬ Spells name word)
      (each : ∀ other ∈ others, Further other) :
      Core .words (first ++ wordsOf others)
        (Column.ofKind ((Kind.ofWireName?
          (Text.joinWith [' '] (first :: others.map Prod.snd))).getD .unknown))
  | decimal (name : Spells "decimal".toList word ∨ Spells "numeric".toList word) :
      Core .closed word (Column.decimalOf defaultDecimal.1 defaultDecimal.2)
  | decimalOf (name : Spells "decimal".toList word ∨ Spells "numeric".toList word)
      (gap : Layout front) (arguments : DecimalArguments inside (precision, scale)) :
      Core .closed (called word front inside) (Column.decimalOf precision scale)
  | timestamp (name : Spells "datetime64".toList word) :
      Core .closed word (Column.ofKind .timestamp)
  | timestampOf (name : Spells "datetime64".toList word) (gap : Layout front)
      (arguments : TimestampArguments inside digits) :
      Core .closed (called word front inside) (.timestamp {} digits)
  | nullable (name : Spells "nullable".toList word) (gap : Layout front) (member : Member)
      (inner : Core member.form member.core member.type) :
      Core .closed (called word front member.text) (member.column.orNull true)
  | array (name : Spells "array".toList word) (gap : Layout front) (member : Member)
      (inner : Core member.form member.core member.type) :
      Core .closed (called word front member.text) (Column.arrayOf member.column)
  | tuple (name : Spells "tuple".toList word) (gap : Layout front) (members : List Member)
      (some : members ≠ [])
      (each : ∀ member ∈ members, Core member.form member.core member.type) :
      Core .closed (called word front (Text.joinWith [','] (members.map Member.text)))
        (Column.tupleOf (members.map Member.column))

/-- A text is a type of the grammar with its null suffix, and nothing but layout around it. -/
def Whole (text : Text) (column : Column) : Prop :=
  ∃ member : Member, text = member.text ∧ member.column = column ∧
    Core member.form member.core member.type

/-- A text names a column: nothing but blanks stands behind the type. -/
def Names (text : Text) (column : Column) : Prop :=
  ∃ whole rest, text = whole ++ rest ∧ Whole whole column ∧ Text.allBlank rest = true

/-! ## Characters -/

theorem layout_char (layout : Text.isLayout c = true) :
    c = ' ' ∨ c = '\t' ∨ c = '\n' ∨ c = '\r' := by
  simpa [Text.isLayout, or_assoc] using layout

theorem layout_not_word (layout : Text.isLayout c = true) : isWordChar c = false := by
  rcases layout_char layout with rfl | rfl | rfl | rfl <;> decide +kernel

/-- The blanks of all scripts, by their numbers. -/
theorem blank_not_word (blank : Text.isBlank c = true) : isWordChar c = false := by
  have number : c = Char.ofNat c.toNat := (Char.ofNat_toNat c).symm
  have listed : c.toNat ∈ [0x09, 0x0A, 0x0B, 0x0C, 0x0D, 0x20, 0x85, 0xA0, 0x1680, 0x2000, 0x2001,
      0x2002, 0x2003, 0x2004, 0x2005, 0x2006, 0x2007, 0x2008, 0x2009, 0x200A, 0x2028, 0x2029,
      0x202F, 0x205F, 0x3000] := by
    simp only [Text.isBlank, Bool.or_eq_true, Bool.and_eq_true, decide_eq_true_eq] at blank
    simp only [List.mem_cons, List.not_mem_nil, or_false]
    omega
  rw [number]
  generalize c.toNat = n at listed
  revert n
  decide +kernel

private theorem word_not_layout (char : isWordChar c = true) : Text.isLayout c = false := by
  by_contra layout
  have := layout_not_word (Bool.eq_true_of_not_eq_false layout)
  rw [char] at this
  cases this

/-! ## Layout -/

theorem layout_nil : Layout [] := by simp [Layout]

theorem layout_append : Layout (front ++ back) ↔ Layout front ∧ Layout back := by
  simp only [Layout, List.mem_append, or_imp, forall_and]

/-- A text is layout and what is left without it. -/
theorem skip_parts (text : Text) : ∃ front, Layout front ∧ text = front ++ skipLayout text :=
  ⟨text.takeWhile Text.isLayout, fun _ member => List.mem_takeWhile_imp member,
    List.takeWhile_append_dropWhile.symm⟩

theorem skip_layout (layout : Layout front) : skipLayout (front ++ rest) = skipLayout rest :=
  List.dropWhile_append_of_pos layout

theorem skip_solid (solid : Text.isLayout c = false) : skipLayout (c :: rest) = c :: rest :=
  List.dropWhile_cons_of_neg (by simp [solid])

theorem skip_word (word : IsWord text) (rest : Text) :
    skipLayout (text ++ rest) = text ++ rest := by
  obtain ⟨c, others, rfl⟩ := List.exists_cons_of_ne_nil word.1
  exact skip_solid (word_not_layout (word.2 c List.mem_cons_self))

/-! ## Words in any case -/

theorem drop_word_iff : Text.dropWord? name text = some rest ↔
    ∃ word, text = word ++ rest ∧ Spells name word := by
  induction name generalizing text with
  | nil =>
    simp only [Text.dropWord?, Option.some.injEq, Spells, Text.fold, List.map_nil,
      List.map_eq_nil_iff, exists_eq_right, List.nil_append]
  | cons n name ih =>
    cases text with
    | nil =>
      simp only [Text.dropWord?, reduceCtorEq, false_iff, not_exists, not_and]
      intro word empty spells
      obtain ⟨rfl, -⟩ := List.append_eq_nil_iff.mp empty.symm
      cases spells
    | cons c text =>
      rw [Text.dropWord?]
      constructor
      · intro found
        split at found
        next same =>
          obtain ⟨word, rfl, spells⟩ := ih.mp found
          refine ⟨c :: word, rfl, ?_⟩
          simp only [Spells, Text.fold, List.map_cons] at spells ⊢
          rw [spells, same]
        · cases found
      · rintro ⟨word, parts, spells⟩
        cases word with
        | nil => cases spells
        | cons d word =>
          obtain ⟨rfl, rfl⟩ := List.cons.inj parts
          obtain ⟨same, others⟩ := List.cons.inj spells
          rw [if_pos same.symm]
          exact ih.mpr ⟨word, rfl, others⟩

theorem opening_not_word : isWordChar '(' = false := by decide +kernel

/-! ## What is read is in the grammar -/

section Sound
variable {α : Type}

/-- What a reader finds stands in front of what it leaves. -/
def Reads (reader : Text → Option (α × Text)) (holds : Text → α → Prop) : Prop :=
  ∀ text found rest, reader text = some (found, rest) →
    ∃ used, text = used ++ rest ∧ holds used found

private theorem mark_sound (found : mark? mark text = some rest) :
    ∃ gap, Layout gap ∧ text = gap ++ mark :: rest := by
  obtain ⟨gap, layout, parts⟩ := skip_parts text
  rw [mark?] at found
  split at found
  · cases found
  next c behind skipped =>
    split at found
    next same =>
      cases found
      exact ⟨gap, layout, by rw [← same, ← skipped]; exact parts⟩
    · cases found

private theorem number_sound (found : number? text = some (n, rest)) :
    ∃ front digits, Layout front ∧ Argument digits n ∧ text = front ++ (digits ++ rest) := by
  obtain ⟨front, layout, parts⟩ := skip_parts text
  rw [number?] at found
  split at found
  · cases found
  next fits =>
    cases found
    rw [Bool.or_eq_true, not_or, List.isEmpty_iff, decide_eq_true_eq, Nat.not_le] at fits
    refine ⟨front, (skipLayout text).takeWhile Char.isDigit, layout,
      ⟨fits.1, fun c member => List.mem_takeWhile_imp member, rfl, fits.2⟩, ?_⟩
    rw [List.takeWhile_append_dropWhile]
    exact parts

/-- What stands in parentheses may have layout before the closing one. -/
theorem parenthesised_sound {reader : Text → Option (α × Text)} {holds : Text → α → Prop}
    (sound : Reads reader holds)
    (padded : ∀ used found back, holds used found → Layout back → holds (used ++ back) found)
    (found : parenthesised? reader text = some (value, rest)) :
    ∃ front inside, Layout front ∧ holds inside value ∧
      text = front ++ '(' :: (inside ++ ')' :: rest) := by
  simp only [parenthesised?, Option.bind_eq_bind, Option.bind_eq_some_iff, Option.some.injEq,
    Prod.mk.injEq] at found
  obtain ⟨behind, opens, ⟨value, after⟩, reads, last, closes, rfl, rfl⟩ := found
  obtain ⟨front, layout, rfl⟩ := mark_sound opens
  obtain ⟨used, rfl, here⟩ := sound _ _ _ reads
  obtain ⟨back, behind, rfl⟩ := mark_sound closes
  exact ⟨front, used ++ back, layout, padded _ _ _ here behind, by rw [List.append_assoc]⟩

private theorem wrapped_sound {reader : Text → Option (α × Text)} {holds : Text → α → Prop}
    (sound : Reads reader holds)
    (padded : ∀ used found back, holds used found → Layout back → holds (used ++ back) found)
    (found : wrapped? name reader text = some (value, rest)) :
    ∃ word front inside, Spells name word ∧ Layout front ∧ holds inside value ∧
      text = called word front inside ++ rest := by
  simp only [wrapped?, Option.bind_eq_bind, Option.bind_eq_some_iff] at found
  obtain ⟨behind, named, found⟩ := found
  obtain ⟨word, rfl, spells⟩ := drop_word_iff.mp named
  obtain ⟨front, inside, layout, here, rfl⟩ := parenthesised_sound sound padded found
  exact ⟨word, front, inside, spells, layout, here, by simp [called]⟩

private theorem decimal_arguments_sound : Reads decimalArguments? DecimalArguments := by
  intro text ⟨precision, scale⟩ rest found
  simp only [decimalArguments?, Option.bind_eq_bind, Option.bind_eq_some_iff] at found
  obtain ⟨⟨n, behind⟩, number, found⟩ := found
  obtain ⟨front, digits, layout, first, rfl⟩ := number_sound number
  dsimp only at found
  split at found
  next places after read =>
    cases found
    obtain ⟨more, comma, places⟩ := Option.bind_eq_some_iff.mp read
    obtain ⟨middle, gap, rfl⟩ := mark_sound comma
    obtain ⟨between, more, next, second, rfl⟩ := number_sound places
    exact ⟨_, by simp, .scale layout first gap next second layout_nil⟩
  · cases found
    exact ⟨_, by simp, .precision layout first layout_nil⟩

theorem decimal_arguments_padded (arguments : DecimalArguments inside sizes)
    (layout : Layout gap) : DecimalArguments (inside ++ gap) sizes := by
  cases arguments with
  | precision before number behind =>
    simpa using DecimalArguments.precision before number (layout_append.mpr ⟨behind, layout⟩)
  | scale before number middle next places behind =>
    simpa using DecimalArguments.scale before number middle next places
      (layout_append.mpr ⟨behind, layout⟩)

private theorem layout_not_closing (layout : Layout gap) : ')' ∉ gap := by
  intro member
  rcases layout_char (layout _ member) with same | same | same | same <;> cases same

private theorem timestamp_arguments_sound : Reads timestampArguments? TimestampArguments := by
  intro text digits rest found
  simp only [timestampArguments?, Option.bind_eq_bind, Option.bind_eq_some_iff] at found
  obtain ⟨⟨n, behind⟩, number, found⟩ := found
  obtain ⟨front, digits, layout, first, rfl⟩ := number_sound number
  dsimp only at found
  split at found
  next zone =>
    cases found
    have parts := List.takeWhile_append_dropWhile (p := (· != ')')) (l := zone)
    refine ⟨front ++ (digits ++ ',' :: zone.takeWhile (· != ')')), ?_, .zone layout first ?_⟩
    · simp [parts]
    · intro member
      have passed := List.mem_takeWhile_imp member
      simp at passed
  · cases found
    exact ⟨_, by simp, .digits layout first layout_nil⟩

theorem timestamp_arguments_padded (arguments : TimestampArguments inside digits)
    (layout : Layout gap) : TimestampArguments (inside ++ gap) digits := by
  cases arguments with
  | digits before number behind =>
    simpa using TimestampArguments.digits before number (layout_append.mpr ⟨behind, layout⟩)
  | @zone front text n zone before number inside =>
    have open_ : ')' ∉ zone ++ gap := by
      simp [inside, layout_not_closing layout]
    simpa using TimestampArguments.zone before number open_

private theorem next_word_sound (found : nextWord? text = some (word, rest)) :
    ∃ gap, Layout gap ∧ IsWord word ∧ NoWordNext rest ∧ text = gap ++ (word ++ rest) := by
  obtain ⟨gap, layout, parts⟩ := skip_parts text
  rw [nextWord?] at found
  split at found
  · cases found
  next some =>
    cases found
    rw [List.isEmpty_iff] at some
    refine ⟨gap, layout, ⟨some, fun c member => List.mem_takeWhile_imp member⟩, ?_, ?_⟩
    · intro c first
      have stops := List.head?_dropWhile_not isWordChar (skipLayout text)
      rwa [first] at stops
    · rw [List.takeWhile_append_dropWhile]
      exact parts

/-- Behind a word only layout lets another one begin. -/
theorem further_words_sound (ends : NoWordNext text)
    (found : furtherWords within text = (words, rest)) :
    ∃ others : List (Text × Text), text = wordsOf others ++ rest ∧ others.map Prod.snd = words ∧
      (∀ other ∈ others, Further other) ∧ NoWordNext rest := by
  induction within generalizing text words with
  | nil =>
    cases found
    exact ⟨[], rfl, rfl, by simp, ends⟩
  | cons w within ih =>
    rw [furtherWords] at found
    split at found
    · cases found
      exact ⟨[], rfl, rfl, by simp, ends⟩
    next word behind next =>
      obtain ⟨gap, layout, isWord, stops, rfl⟩ := next_word_sound next
      split at found
      · cases found
        exact ⟨[], rfl, rfl, by simp, ends⟩
      next plain =>
        cases more : furtherWords within behind with
        | mk words after =>
          rw [more] at found
          cases found
          obtain ⟨others, rfl, rfl, each, last⟩ := ih stops more
          have apart : gap ≠ [] := by
            rintro rfl
            obtain ⟨c, tail, rfl⟩ := List.exists_cons_of_ne_nil isWord.1
            have word := isWord.2 c List.mem_cons_self
            have stopped := ends c rfl
            rw [word] at stopped
            cases stopped
          exact ⟨(gap, word) :: others, by simp [wordsOf], rfl,
            List.forall_mem_cons.mpr ⟨⟨layout, apart, isWord, by simpa using plain⟩, each⟩, last⟩

private theorem null_suffix_sound (found : nullSuffix text = (allowed, rest)) :
    ∃ suffix, text = suffix ++ rest ∧ NullSuffix suffix allowed := by
  obtain ⟨front, layout, parts⟩ := skip_parts text
  rw [nullSuffix] at found
  split at found
  next after negated =>
    cases found
    simp only [notNull?, Option.bind_eq_bind, Option.bind_eq_some_iff] at negated
    obtain ⟨behind, negation, negated⟩ := negated
    obtain ⟨first, same, spells⟩ := drop_word_iff.mp negation
    split at negated
    · cases negated
    next c others =>
      split at negated
      next gap =>
        obtain ⟨middle, between, behind⟩ := skip_parts (c :: others)
        obtain ⟨last, same', word⟩ := drop_word_iff.mp negated
        have apart : middle ≠ [] := by
          rintro rfl
          rw [List.nil_append] at behind
          have solid := List.head?_dropWhile_not Text.isLayout (c :: others)
          rw [← skipLayout, ← behind] at solid
          rw [List.head?_cons] at solid
          simp [gap] at solid
        rw [same'] at behind
        rw [same, behind] at parts
        exact ⟨_, by rw [parts]; simp, .notNull layout spells between apart word⟩
      · cases negated
  · split at found
    next after null =>
      cases found
      obtain ⟨last, same, word⟩ := drop_word_iff.mp null
      rw [same] at parts
      exact ⟨_, by rw [parts]; simp, .null layout word⟩
    · cases found
      exact ⟨[], rfl, .absent⟩

/-- Types with commas between them. -/
def Listed (text : Text) (columns : List Column) : Prop :=
  ∃ members : List Member, members ≠ [] ∧ text = Text.joinWith [','] (members.map Member.text) ∧
    members.map Member.column = columns ∧
    ∀ member ∈ members, Core member.form member.core member.type

/-- Layout behind a member may count as its own. -/
def Member.before (member : Member) (gap : Text) (layout : Layout gap) : Member :=
  { member with
    back := member.back ++ gap
    back_layout := layout_append.mpr ⟨member.back_layout, layout⟩ }

theorem before_text (member : Member) (layout : Layout gap) :
    (member.before gap layout).text = member.text ++ gap := by
  simp only [Member.text, Member.before, List.append_assoc]

theorem whole_padded (whole : Whole used column) (layout : Layout gap) :
    Whole (used ++ gap) column := by
  obtain ⟨member, rfl, rfl, core⟩ := whole
  exact ⟨member.before gap layout, (before_text member layout).symm, rfl, core⟩

theorem or_null_false (column : Column) : column.orNull false = column := by
  cases column <;> simp [Column.orNull, Column.withHeading, Column.heading]

/-- A type alone. -/
def alone (form : Form) (text : Text) (type : Column) : Member where
  front := []
  core := text
  suffix := []
  back := []
  form := form
  type := type
  nullable := false
  front_layout := layout_nil
  back_layout := layout_nil
  null_suffix := .absent
  apart := fun _ c first => by cases first

theorem alone_text : (alone form text type).text = text := by
  simp [alone, Member.text]

theorem alone_column : (alone form text type).column = type := or_null_false type

theorem core_whole (core : Core form text type) : Whole text type :=
  ⟨alone form text type, alone_text.symm, alone_column, core⟩

/-! Members are written with a blank behind each comma, which counts as the next one's. -/

theorem blank_layout : Layout [' '] := List.forall_mem_singleton.mpr rfl

/-- Layout in front of a member may count as its own, too. -/
def Member.behind (member : Member) (gap : Text) (layout : Layout gap) : Member :=
  { member with
    front := gap ++ member.front
    front_layout := layout_append.mpr ⟨layout, member.front_layout⟩ }

theorem behind_text (member : Member) (layout : Layout gap) :
    (member.behind gap layout).text = gap ++ member.text := by
  simp only [Member.text, Member.behind, List.append_assoc]

/-- Members with a blank in front of all but the first. -/
def spread : List Member → List Member
  | [] => []
  | first :: others => first :: others.map fun member => member.behind [' '] blank_layout

private theorem comma_blank (first : Text) (others : List Text) :
    Text.joinWith [','] (first :: others.map ([' '] ++ ·)) =
      Text.joinWith [',', ' '] (first :: others) := by
  induction others generalizing first with
  | nil => rfl
  | cons next others ih =>
    have behind := ih ([' '] ++ next)
    simp only [List.map_cons, Text.joinWith] at behind ⊢
    rw [behind]
    cases others <;> simp [Text.joinWith]

private theorem spread_text (members : List Member) :
    Text.joinWith [','] ((spread members).map Member.text) =
      Text.joinWith [',', ' '] (members.map Member.text) := by
  cases members with
  | nil => rfl
  | cons first others =>
    have texts : (others.map fun member => member.behind [' '] blank_layout).map Member.text =
        (others.map Member.text).map ([' '] ++ ·) := by
      simp only [List.map_map, Function.comp_def, behind_text]
    rw [spread, List.map_cons, texts, comma_blank, List.map_cons]

private theorem spread_columns (members : List Member) :
    (spread members).map Member.column = members.map Member.column := by
  cases members with
  | nil => rfl
  | cons first others =>
    simp only [spread, List.map_cons, List.map_map]
    rfl

private theorem spread_core (each : ∀ member ∈ members, Core member.form member.core member.type) :
    ∀ member ∈ spread members, Core member.form member.core member.type := by
  cases members with
  | nil => simp [spread]
  | cons first others =>
    obtain ⟨core, cores⟩ := List.forall_mem_cons.mp each
    refine List.forall_mem_cons.mpr ⟨core, fun member listed => ?_⟩
    obtain ⟨other, among, rfl⟩ := List.mem_map.mp listed
    exact cores other among

theorem spread_tuple (name : Spells "tuple".toList word) (gap : Layout front)
    (some : members ≠ []) (each : ∀ member ∈ members, Core member.form member.core member.type) :
    Core .closed (called word front (Text.joinWith [',', ' '] (members.map Member.text)))
      (Column.tupleOf (members.map Member.column)) := by
  have others : spread members ≠ [] := by
    cases members with
    | nil => exact absurd rfl some
    | cons first others => exact List.cons_ne_nil _ _
  have tuple := Core.tuple name gap (spread members) others (spread_core each)
  rwa [spread_text, spread_columns] at tuple

/-- One more type in front of some. -/
theorem whole_listed (whole : Whole first column) (listed : Listed others columns) :
    Listed (first ++ ',' :: others) (column :: columns) := by
  obtain ⟨member, rfl, rfl, core⟩ := whole
  obtain ⟨members, some, rfl, rfl, each⟩ := listed
  obtain ⟨next, more, rfl⟩ := List.exists_cons_of_ne_nil some
  exact ⟨member :: next :: more, by simp, by simp [Text.joinWith], rfl,
    List.forall_mem_cons.mpr ⟨core, each⟩⟩

theorem listed_one (whole : Whole text column) : Listed text [column] := by
  obtain ⟨member, rfl, rfl, core⟩ := whole
  exact ⟨[member], by simp, rfl, rfl, by simpa using core⟩

theorem listed_padded (listed : Listed used columns) (layout : Layout gap) :
    Listed (used ++ gap) columns := by
  obtain ⟨members, some, rfl, rfl, each⟩ := listed
  induction members with
  | nil => exact absurd rfl some
  | cons member members ih =>
    obtain ⟨core, others⟩ := List.forall_mem_cons.mp each
    have whole : Whole member.text member.column := ⟨member, rfl, rfl, core⟩
    cases members with
    | nil => exact listed_one (whole_padded whole layout)
    | cons next more =>
      have behind := whole_listed whole (ih (List.cons_ne_nil next more) others)
      simpa [Text.joinWith] using behind

theorem nullable_of_whole (name : Spells "nullable".toList word) (gap : Layout front)
    (whole : Whole inside column) :
    Core .closed (called word front inside) (column.orNull true) := by
  obtain ⟨member, rfl, rfl, core⟩ := whole
  exact .nullable name gap member core

theorem array_of_whole (name : Spells "array".toList word) (gap : Layout front)
    (whole : Whole inside column) :
    Core .closed (called word front inside) (Column.arrayOf column) := by
  obtain ⟨member, rfl, rfl, core⟩ := whole
  exact .array name gap member core

theorem tuple_of_listed (name : Spells "tuple".toList word) (gap : Layout front)
    (listed : Listed inside columns) :
    Core .closed (called word front inside) (Column.tupleOf columns) := by
  obtain ⟨members, some, rfl, rfl, each⟩ := listed
  exact .tuple name gap members some each

private theorem list_sound {item : Text → Option (Column × Text)} (sound : Reads item Whole)
    (within : Text) : Reads (list? item within) Listed := by
  induction within with
  | nil =>
    intro text columns rest found
    cases found
  | cons w within ih =>
    intro text columns rest found
    simp only [list?, Option.bind_eq_bind, Option.bind_eq_some_iff] at found
    obtain ⟨⟨column, behind⟩, first, found⟩ := found
    obtain ⟨used, rfl, whole⟩ := sound _ _ _ first
    dsimp only at found
    split at found
    next others after more =>
      cases found
      obtain ⟨next, comma, read⟩ := Option.bind_eq_some_iff.mp more
      obtain ⟨gap, layout, rfl⟩ := mark_sound comma
      obtain ⟨behind, rfl, listed⟩ := ih _ _ _ read
      exact ⟨_, by simp, whole_listed (whole_padded whole layout) listed⟩
    · cases found
      exact ⟨used, rfl, listed_one whole⟩

/-- A type without its null suffix: the alternatives of a type in their order. -/
def core? (depth : Nat) (start : Text) : Option (Column × Text) :=
  (wrapped? "nullable".toList (column? depth) start).map (fun (c, r) => (c.orNull true, r)) <|>
  (wrapped? "array".toList (column? depth) start).map (fun (c, r) => (Column.arrayOf c, r)) <|>
  (wrapped? "tuple".toList (fun inside => list? (column? depth) inside inside) start).map
    (fun (cs, r) => (Column.tupleOf cs, r)) <|>
  decimal? start <|> timestamp? start <|> scalar? start

theorem column_eq (depth : Nat) (text : Text) :
    column? (depth + 1) text = (core? depth (skipLayout text)).map fun (type, rest) =>
      (type.orNull (nullSuffix rest).1, (nullSuffix rest).2) := by
  rw [column?]
  change (core? depth (skipLayout text)).bind _ = _
  cases core? depth (skipLayout text) <;> rfl

private theorem either_some {first second : Option α} (found : (first <|> second) = some a) :
    first = some a ∨ first = none ∧ second = some a := by
  cases first with
  | none => exact .inr ⟨rfl, found⟩
  | some b => exact .inl found

private theorem decimal_sound (found : decimal? start = some (type, rest)) :
    ∃ core, start = core ++ rest ∧ Core .closed core type := by
  simp only [decimal?, Option.bind_eq_bind, Option.bind_eq_some_iff] at found
  obtain ⟨behind, named, found⟩ := found
  have name : ∃ word, start = word ++ behind ∧
      (Spells "decimal".toList word ∨ Spells "numeric".toList word) := by
    rcases either_some named with decimal | ⟨-, numeric⟩
    · obtain ⟨word, parts, spells⟩ := drop_word_iff.mp decimal
      exact ⟨word, parts, .inl spells⟩
    · obtain ⟨word, parts, spells⟩ := drop_word_iff.mp numeric
      exact ⟨word, parts, .inr spells⟩
  obtain ⟨word, rfl, spells⟩ := name
  split at found
  next precision scale after arguments =>
    cases found
    obtain ⟨front, inside, layout, holds, rfl⟩ := parenthesised_sound decimal_arguments_sound
      (fun _ _ _ => decimal_arguments_padded) arguments
    exact ⟨_, by simp [called], .decimalOf spells layout holds⟩
  · cases found
    exact ⟨word, rfl, .decimal spells⟩

private theorem timestamp_sound (found : timestamp? start = some (type, rest)) :
    ∃ core, start = core ++ rest ∧ Core .closed core type := by
  simp only [timestamp?, Option.bind_eq_bind, Option.bind_eq_some_iff] at found
  obtain ⟨behind, named, found⟩ := found
  obtain ⟨word, rfl, spells⟩ := drop_word_iff.mp named
  split at found
  next digits after arguments =>
    cases found
    obtain ⟨front, inside, layout, holds, rfl⟩ := parenthesised_sound timestamp_arguments_sound
      (fun _ _ _ => timestamp_arguments_padded) arguments
    exact ⟨_, by simp [called], .timestampOf spells layout holds⟩
  · cases found
    exact ⟨word, rfl, .timestamp spells⟩

/-- A text that begins with a name which takes arguments is no scalar. -/
theorem sized_first (decimal : decimal? text = none) (timestamp : timestamp? text = none) :
    ∀ name ∈ sizedNames, Text.dropWord? name text = none := by
  have decimals : Text.dropWord? "decimal".toList text = none ∧
      Text.dropWord? "numeric".toList text = none := by
    rw [decimal?] at decimal
    cases first : Text.dropWord? "decimal".toList text with
    | none =>
      cases second : Text.dropWord? "numeric".toList text with
      | none => exact ⟨rfl, rfl⟩
      | some rest =>
        rw [first, second] at decimal
        dsimp [bind, HOrElse.hOrElse, OrElse.orElse, Option.orElse] at decimal
        split at decimal <;> cases decimal
    | some rest =>
      rw [first] at decimal
      dsimp [bind, HOrElse.hOrElse, OrElse.orElse, Option.orElse] at decimal
      split at decimal <;> cases decimal
  have timestamps : Text.dropWord? "datetime64".toList text = none := by
    rw [timestamp?] at timestamp
    cases first : Text.dropWord? "datetime64".toList text with
    | none => rfl
    | some rest =>
      rw [first] at timestamp
      dsimp [bind] at timestamp
      split at timestamp <;> cases timestamp
  simp only [sizedNames, List.forall_mem_cons, List.not_mem_nil, false_implies, implies_true,
    and_true]
  exact ⟨decimals.1, decimals.2, timestamps⟩

private theorem scalar_sound (solid : skipLayout start = start) (decimal : decimal? start = none)
    (timestamp : timestamp? start = none) (found : scalar? start = some (type, rest)) :
    ∃ core, start = core ++ rest ∧ Core .words core type ∧ NoWordNext rest := by
  simp only [scalar?, Option.bind_eq_bind, Option.bind_eq_some_iff] at found
  obtain ⟨⟨first, behind⟩, next, found⟩ := found
  obtain ⟨gap, layout, word, stops, parts⟩ := next_word_sound next
  have none : gap = [] := by
    rw [parts, skip_layout layout, skip_word word] at solid
    exact (List.append_left_eq_self.mp solid.symm)
  cases more : furtherWords behind behind with
  | mk words after =>
    rw [more] at found
    cases found
    obtain ⟨others, rfl, rfl, each, last⟩ := further_words_sound stops more
    rw [none, List.nil_append] at parts
    refine ⟨first ++ wordsOf others, by rw [parts, List.append_assoc], .scalar word ?_ each, last⟩
    rintro name listed beginning rest rfl spells
    have absent := sized_first decimal timestamp name listed
    rw [drop_word_iff.mpr ⟨beginning, by rw [parts, List.append_assoc], spells⟩] at absent
    cases absent

private theorem core_sound (sound : Reads (column? depth) Whole) (solid : skipLayout start = start)
    (found : core? depth start = some (type, rest)) :
    ∃ form core, start = core ++ rest ∧ Core form core type ∧
      (form = .words → NoWordNext rest) := by
  have closed {core : Text} : Form.closed = .words → NoWordNext core := fun words => by cases words
  rcases either_some found with found | ⟨-, found⟩
  · obtain ⟨⟨column, after⟩, wrapped, same⟩ := Option.map_eq_some_iff.mp found
    cases same
    obtain ⟨word, front, inside, spells, layout, ⟨member, rfl, rfl, core⟩, rfl⟩ :=
      wrapped_sound sound (fun _ _ _ => whole_padded) wrapped
    exact ⟨.closed, _, rfl, .nullable spells layout member core, closed⟩
  rcases either_some found with found | ⟨-, found⟩
  · obtain ⟨⟨column, after⟩, wrapped, same⟩ := Option.map_eq_some_iff.mp found
    cases same
    obtain ⟨word, front, inside, spells, layout, ⟨member, rfl, rfl, core⟩, rfl⟩ :=
      wrapped_sound sound (fun _ _ _ => whole_padded) wrapped
    exact ⟨.closed, _, rfl, .array spells layout member core, closed⟩
  rcases either_some found with found | ⟨-, found⟩
  · obtain ⟨⟨columns, after⟩, wrapped, same⟩ := Option.map_eq_some_iff.mp found
    cases same
    have lists : Reads (fun inside => list? (column? depth) inside inside) Listed :=
      fun text columns rest found => list_sound sound text text columns rest found
    obtain ⟨word, front, inside, spells, layout, ⟨members, some, rfl, rfl, each⟩, rfl⟩ :=
      wrapped_sound lists (fun _ _ _ => listed_padded) wrapped
    exact ⟨.closed, _, rfl, .tuple spells layout members some each, closed⟩
  rcases either_some found with found | ⟨decimal, found⟩
  · obtain ⟨core, parts, holds⟩ := decimal_sound found
    exact ⟨.closed, core, parts, holds, closed⟩
  rcases either_some found with found | ⟨timestamp, found⟩
  · obtain ⟨core, parts, holds⟩ := timestamp_sound found
    exact ⟨.closed, core, parts, holds, closed⟩
  · obtain ⟨core, parts, holds, stops⟩ := scalar_sound solid decimal timestamp found
    exact ⟨.words, core, parts, holds, fun _ => stops⟩

/-- What a reader of types finds is one of the grammar. -/
theorem column_sound (depth : Nat) : Reads (column? depth) Whole := by
  induction depth with
  | zero =>
    intro text column rest found
    cases found
  | succ depth ih =>
    intro text column rest found
    obtain ⟨front, layout, parts⟩ := skip_parts text
    rw [column_eq] at found
    obtain ⟨⟨type, behind⟩, read, same⟩ := Option.map_eq_some_iff.mp found
    cases same
    have solid : skipLayout (skipLayout text) = skipLayout text := by
      conv_rhs => rw [parts, skip_layout layout]
    obtain ⟨form, core, starts, holds, stops⟩ := core_sound ih solid read
    obtain ⟨suffix, ends, null⟩ := null_suffix_sound (Prod.eta (nullSuffix behind)).symm
    have apart : form = .words → NoWordNext suffix := by
      intro words c first
      apply stops words c
      rw [ends, List.head?_append, Option.mem_def.mp first, Option.some_or]
      rfl
    refine ⟨front ++ (core ++ suffix), ?_,
      ⟨front, core, suffix, [], form, type, _, layout, layout_nil, null, apart⟩, ?_, rfl, holds⟩
    · rw [parts, starts]
      conv_lhs => rw [ends]
      simp
    · simp [Member.text]

theorem read_names (found : read? text = some column) : Names text column := by
  rw [read?] at found
  split at found
  next column rest read =>
    split at found
    next blank =>
      cases found
      obtain ⟨used, parts, whole⟩ := column_sound _ _ _ _ read
      exact ⟨used, rest, parts, whole, blank⟩
    · cases found
  · cases found

end Sound

end SqlWire.TypeGrammar
