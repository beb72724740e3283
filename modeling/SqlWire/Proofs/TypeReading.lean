import SqlWire.Proofs.TypeGrammar

/-! Every text of the grammar of type names is read, as the column it names. A reader takes as
much as it can, so each lemma says what may stand behind: behind a whole type neither a word nor
an opening parenthesis, behind a type without its null suffix one more of the suffixes. -/
namespace SqlWire.TypeGrammar
open SqlWire.TypeName NumeralText

variable {α : Type}

/-- What may stand behind a whole type: no word and no opening parenthesis comes next, even
behind layout. -/
def Closes (rest : Text) : Prop :=
  ∀ c ∈ (skipLayout rest).head?, isWordChar c = false ∧ c ≠ '('

private theorem closes_layout (layout : Layout gap) : Closes (gap ++ rest) ↔ Closes rest := by
  rw [Closes, skip_layout layout]
  exact Iff.rfl

theorem closes_mark (mark : c = ')' ∨ c = ',') (rest : Text) : Closes (c :: rest) := by
  have solid : Text.isLayout c = false := by rcases mark with rfl | rfl <;> rfl
  rw [Closes, skip_solid solid]
  rintro d ⟨⟩
  rcases mark with rfl | rfl <;> decide +kernel

private theorem closes_blank (blank : Text.allBlank rest = true) : Closes rest := by
  intro c first
  rw [Text.allBlank, List.all_eq_true] at blank
  have isBlank := blank c ((List.dropWhile_suffix _).subset (List.mem_of_mem_head? first))
  refine ⟨blank_not_word isBlank, ?_⟩
  rintro rfl
  cases isBlank

private theorem closes_next (closes : Closes rest) : NoWordNext rest := by
  intro c first
  obtain ⟨tail, rfl⟩ := List.head?_eq_some_iff.mp first
  by_cases layout : Text.isLayout c = true
  · exact layout_not_word layout
  · rw [Closes, skip_solid (Bool.eq_false_of_not_eq_true layout)] at closes
    exact (closes c rfl).1

/-! ## Marks, numbers and words -/

theorem mark_complete (layout : Layout gap) (solid : Text.isLayout mark = false) (rest : Text) :
    mark? mark (gap ++ mark :: rest) = some rest := by
  rw [mark?, skip_layout layout, skip_solid solid]
  exact if_pos rfl

private theorem mark_absent (other : ∀ c ∈ (skipLayout text).head?, c ≠ mark) :
    mark? mark text = none := by
  rw [mark?]
  split
  · rfl
  next c rest skipped =>
    rw [skipped] at other
    exact if_neg (other c rfl)

/-- A run of characters up to one that does not belong to it. -/
theorem run_parts {p : Char → Bool} {run rest : Text} (passes : ∀ c ∈ run, p c = true)
    (ends : ∀ c ∈ rest.head?, p c = false) :
    (run ++ rest).takeWhile p = run ∧ (run ++ rest).dropWhile p = rest := by
  rw [List.takeWhile_append_of_pos passes, List.dropWhile_append_of_pos passes]
  cases rest with
  | nil => simp
  | cons c rest => simp [ends c rfl]

private theorem digit_not_layout (digit : c.isDigit = true) : Text.isLayout c = false := by
  by_contra layout
  rcases layout_char (Bool.eq_true_of_not_eq_false layout) with rfl | rfl | rfl | rfl <;>
    cases digit

theorem number_complete (layout : Layout gap) (number : Argument digits n)
    (ends : ∀ c ∈ rest.head?, c.isDigit = false) :
    number? (gap ++ (digits ++ rest)) = some (n, rest) := by
  obtain ⟨c, others, shape⟩ := List.exists_cons_of_ne_nil number.some
  have start : skipLayout (gap ++ (digits ++ rest)) = digits ++ rest := by
    rw [skip_layout layout, shape]
    exact skip_solid (digit_not_layout (number.digits c (by rw [shape]; exact List.mem_cons_self)))
  obtain ⟨taken, left⟩ := run_parts number.digits ends
  have fits : ¬ (digits.isEmpty || decide (4294967296 ≤ Numeral.value digits)) = true := by
    rw [Bool.or_eq_true, not_or, List.isEmpty_iff, decide_eq_true_eq, number.value]
    exact ⟨number.some, Nat.not_le.mpr number.fits⟩
  rw [number?, start, taken, left, if_neg fits, number.value]

theorem next_word_complete (layout : Layout gap) (word : IsWord text) (next : NoWordNext rest) :
    nextWord? (gap ++ (text ++ rest)) = some (text, rest) := by
  obtain ⟨taken, left⟩ := run_parts word.2 next
  have some : ¬ text.isEmpty = true := by simpa using word.1
  rw [nextWord?, skip_layout layout, skip_word word, taken, left, if_neg some]

theorem next_word_absent (ends : ∀ c ∈ (skipLayout text).head?, isWordChar c = false) :
    nextWord? text = none := by
  rw [nextWord?]
  cases start : skipLayout text with
  | nil => rfl
  | cons c rest =>
    rw [start] at ends
    simp [ends c rfl]

/-! ## Names -/

private theorem lower_word (lower : isWordChar c.toLower = true) : isWordChar c = true := by
  by_cases upper : c.val ≥ 65 ∧ c.val ≤ 90
  · have capital : c.isUpper = true := decide_eq_true upper
    change ((((c.isUpper || c.isLower) || c.isDigit) || _) || _) = true
    simp only [capital, Bool.true_or]
  · have same : c.toLower = c := dif_neg upper
    rwa [same] at lower

/-- The letters of a name are word characters in any case. -/
theorem spelled_word (spells : Spells name word) (some : name ≠ [])
    (letters : (Text.fold name).all isWordChar = true) : IsWord word := by
  refine ⟨?_, fun c member => lower_word ?_⟩
  · rintro rfl
    exact some (List.map_eq_nil_iff.mp spells.symm)
  · rw [List.all_eq_true, ← spells] at letters
    exact letters _ (List.mem_map_of_mem member)

theorem drop_spelled (spells : Spells name word) (rest : Text) :
    Text.dropWord? name (word ++ rest) = some rest :=
  drop_word_iff.mpr ⟨word, rfl, spells⟩

/-- Of two names neither of which begins the other, only one begins a text. -/
theorem drop_other (spells : Spells other word) (one : ¬ Text.fold name <+: Text.fold other)
    (two : ¬ Text.fold other <+: Text.fold name) (rest : Text) :
    Text.dropWord? name (word ++ rest) = none := by
  cases found : Text.dropWord? name (word ++ rest) with
  | none => rfl
  | some behind =>
    obtain ⟨beginning, same, again⟩ := drop_word_iff.mp found
    have folded := congrArg Text.fold same
    simp only [Text.fold, List.map_append] at folded
    have here : Text.fold name <+: Text.fold word ++ Text.fold rest := by
      rw [← again]
      exact ⟨_, folded.symm⟩
    have there : Text.fold other <+: Text.fold word ++ Text.fold rest := by
      rw [← spells]
      exact List.prefix_append _ _
    exact ((List.prefix_or_prefix_of_prefix here there).elim one two).elim

/-- The names that are a type only with a type in parentheses behind them. -/
def wrapperNames : List Text := ["nullable".toList, "array".toList, "tuple".toList]

/-- The names that a type can begin with, other than that of a scalar. -/
def typeNames : List Text := wrapperNames ++ sizedNames

theorem other_name (listed : name ∈ typeNames) (other : Text) (also : other ∈ typeNames)
    (apart : name ≠ other) (spells : Spells other word) (rest : Text) :
    Text.dropWord? name (word ++ rest) = none := by
  have free : ∀ one ∈ typeNames, ∀ two ∈ typeNames, one ≠ two →
      ¬ Text.fold one <+: Text.fold two := by decide
  exact drop_other spells (free name listed other also apart)
    (free other also name listed apart.symm) rest

theorem name_word (listed : name ∈ typeNames) (spells : Spells name word) : IsWord word := by
  have named : ∀ name ∈ typeNames, name ≠ [] ∧ (Text.fold name).all isWordChar = true := by
    decide +kernel
  exact spelled_word spells (named name listed).1 (named name listed).2

theorem null_word (spells : Spells "null".toList word) : IsWord word :=
  spelled_word spells (by decide) (by decide +kernel)

theorem not_word (spells : Spells "not".toList word) : IsWord word :=
  spelled_word spells (by decide) (by decide +kernel)

/-! ## Suffixes -/

/-- What may stand behind a type without its null suffix. -/
structure Follows (form : Form) (rest : Text) : Prop where
  opens : mark? '(' rest = none
  ends : ∀ within, furtherWords within rest = ([], rest)
  next : form = .words → NoWordNext rest

private theorem suffix_word (word : Text.sameFolded text "null".toList = true ∨
    Text.sameFolded text "not".toList = true) : beginsSuffix text = true := by
  simpa [beginsSuffix] using word

private theorem same_folded (spells : Spells name word) : Text.sameFolded word name = true := by
  rw [Text.sameFolded, spells, beq_self_eq_true]

/-- No parenthesis opens before a word. -/
theorem word_opens (layout : Layout gap) (word : IsWord text) (rest : Text) :
    mark? '(' (gap ++ (text ++ rest)) = none := by
  apply mark_absent
  rw [skip_layout layout, skip_word word]
  obtain ⟨c, tail, rfl⟩ := List.exists_cons_of_ne_nil word.1
  rintro d ⟨⟩ rfl
  have char := word.2 '(' List.mem_cons_self
  rw [opening_not_word] at char
  cases char

/-- A word of a null suffix ends the words of a type. -/
theorem word_follows (layout : Layout gap) (word : IsWord text)
    (begins : beginsSuffix text = true) (next : NoWordNext rest) (within : Text) :
    furtherWords within (gap ++ (text ++ rest)) = ([], gap ++ (text ++ rest)) := by
  cases within with
  | nil => rfl
  | cons w within =>
    rw [furtherWords, next_word_complete layout word next]
    exact if_pos begins

theorem layout_next (some : gap ≠ []) (layout : Layout gap) : NoWordNext (gap ++ rest) := by
  obtain ⟨c, tail, rfl⟩ := List.exists_cons_of_ne_nil some
  rintro d ⟨⟩
  exact layout_not_word (layout c List.mem_cons_self)

private theorem suffix_follows (suffix : NullSuffix text allowed) (closes : Closes rest)
    (apart : form = .words → NoWordNext text) : Follows form (text ++ rest) := by
  have next : form = .words → NoWordNext (text ++ rest) := by
    intro words
    cases text with
    | nil => exact closes_next closes
    | cons c tail => exact apart words
  cases suffix with
  | absent =>
    refine ⟨mark_absent fun c first => (closes c first).2, fun within => ?_, next⟩
    cases within with
    | nil => rfl
    | cons w within =>
      rw [List.nil_append, furtherWords, next_word_absent fun c first => (closes c first).1]
  | null gap word =>
    have begins := suffix_word (.inl (same_folded word))
    refine ⟨?_, fun within => ?_, next⟩ <;> rw [List.append_assoc]
    · exact word_opens gap (null_word word) rest
    · exact word_follows gap (null_word word) begins (closes_next closes) within
  | notNull gap negation between some word =>
    have begins := suffix_word (.inr (same_folded negation))
    refine ⟨?_, fun within => ?_, next⟩ <;> rw [List.append_assoc, List.append_assoc]
    · exact word_opens gap (not_word negation) _
    · rw [List.append_assoc]
      exact word_follows gap (not_word negation) begins (layout_next some between) within

/-- No name is read where no word begins. -/
theorem drop_absent (words : ∀ word, Spells name word → IsWord word)
    (ends : ∀ c ∈ text.head?, isWordChar c = false) : Text.dropWord? name text = none := by
  cases found : Text.dropWord? name text with
  | none => rfl
  | some rest =>
    obtain ⟨word, rfl, spells⟩ := drop_word_iff.mp found
    obtain ⟨c, tail, rfl⟩ := List.exists_cons_of_ne_nil (words word spells).1
    have char := (words _ spells).2 c List.mem_cons_self
    rw [ends c rfl] at char
    cases char

theorem null_suffix_absent (ends : ∀ c ∈ (skipLayout text).head?, isWordChar c = false) :
    nullSuffix text = (false, text) := by
  have negated : notNull? text = none := by
    rw [notNull?, drop_absent (fun _ => not_word) ends]
    rfl
  rw [nullSuffix, negated, drop_absent (fun _ => null_word) ends]

private theorem null_suffix_complete (suffix : NullSuffix text allowed) (closes : Closes rest) :
    nullSuffix (text ++ rest) = (allowed, rest) := by
  cases suffix with
  | absent => exact null_suffix_absent fun c first => (closes c first).1
  | @null front last gap word =>
    have start : skipLayout (front ++ last ++ rest) = last ++ rest := by
      rw [List.append_assoc, skip_layout gap, skip_word (null_word word)]
    have negated : notNull? (front ++ last ++ rest) = none := by
      rw [notNull?, start, drop_other word (by decide) (by decide)]
      rfl
    rw [nullSuffix, negated, start, drop_spelled word]
  | @notNull front first middle last gap negation between some word =>
    have start : skipLayout (front ++ (first ++ (middle ++ last)) ++ rest) =
        first ++ (middle ++ (last ++ rest)) := by
      rw [List.append_assoc, skip_layout gap, List.append_assoc, skip_word (not_word negation),
        List.append_assoc]
    have negated : notNull? (front ++ (first ++ (middle ++ last)) ++ rest) = rest := by
      obtain ⟨c, tail, rfl⟩ := List.exists_cons_of_ne_nil some
      rw [notNull?, start, drop_spelled negation]
      change (if Text.isLayout c then Text.dropWord? _ (skipLayout (c :: tail ++ _)) else none) = _
      rw [if_pos (between c List.mem_cons_self), skip_layout between, skip_word (null_word word),
        drop_spelled word]
    rw [nullSuffix, negated]

/-! ## Arguments -/

private theorem parenthesised_eq (reader : Text → Option (α × Text)) (text : Text) :
    parenthesised? reader text = (mark? '(' text).bind fun inside =>
      (reader inside).bind fun found =>
        (mark? ')' found.2).bind fun rest => some (found.1, rest) := rfl

private theorem parenthesised_complete {reader : Text → Option (α × Text)} (before : Layout front)
    (behind : Layout back) (read : reader (inside ++ ')' :: rest) = some (a, back ++ ')' :: rest)) :
    parenthesised? reader (front ++ '(' :: (inside ++ ')' :: rest)) = some (a, rest) := by
  rw [parenthesised_eq, mark_complete before rfl, Option.bind_some, read, Option.bind_some,
    mark_complete behind rfl, Option.bind_some]

private theorem parenthesised_unopened {reader : Text → Option (α × Text)}
    (opens : mark? '(' text = none) :
    parenthesised? reader text = none := by
  rw [parenthesised_eq, opens, Option.bind_none]

theorem parenthesised_unclosed {reader : Text → Option (α × Text)} (layout : Layout gap)
    (unclosed : ∀ a rest, reader inside = some (a, rest) → mark? ')' rest = none) :
    parenthesised? reader (gap ++ '(' :: inside) = none := by
  rw [parenthesised_eq, mark_complete layout rfl, Option.bind_some]
  cases read : reader inside with
  | none => rfl
  | some found => rw [Option.bind_some, unclosed found.1 found.2 read, Option.bind_none]

private theorem called_append (name gap inside rest : Text) :
    called name gap inside ++ rest = name ++ (gap ++ '(' :: (inside ++ ')' :: rest)) := by
  simp [called]

theorem wrapped_eq (name : Text) (reader : Text → Option (α × Text)) (text : Text) :
    wrapped? name reader text = (Text.dropWord? name text).bind (parenthesised? reader) := rfl

private theorem wrapped_complete {reader : Text → Option (α × Text)} (spells : Spells name word)
    (before : Layout front) (behind : Layout back)
    (read : reader (inside ++ ')' :: rest) = some (a, back ++ ')' :: rest)) :
    wrapped? name reader (word ++ (front ++ '(' :: (inside ++ ')' :: rest))) = some (a, rest) := by
  rw [wrapped_eq, drop_spelled spells, Option.bind_some]
  exact parenthesised_complete before behind read

theorem wrapped_other {reader : Text → Option (α × Text)} (listed : name ∈ typeNames)
    (other : Text) (also : other ∈ typeNames) (apart : name ≠ other)
    (spells : Spells other word) (rest : Text) : wrapped? name reader (word ++ rest) = none := by
  rw [wrapped_eq, other_name listed other also apart spells, Option.bind_none]

theorem mark_other (layout : Layout gap) (solid : Text.isLayout c = false) (other : c ≠ mark)
    (rest : Text) : mark? mark (gap ++ c :: rest) = none := by
  apply mark_absent
  rw [skip_layout layout, skip_solid solid]
  rintro d ⟨⟩
  exact other

/-- Digits end at layout or at a mark. -/
theorem digits_end (layout : Layout gap) (mark : Char) (other : mark.isDigit = false)
    (rest : Text) : ∀ c ∈ (gap ++ mark :: rest).head?, c.isDigit = false := by
  intro c first
  cases gap with
  | nil =>
    cases first
    exact other
  | cons d gap =>
    cases first
    by_contra digit
    have solid := digit_not_layout (Bool.eq_true_of_not_eq_false digit)
    rw [layout c List.mem_cons_self] at solid
    cases solid

private theorem decimal_arguments_complete (arguments : DecimalArguments inside found)
    (rest : Text) :
    ∃ back, Layout back ∧
      decimalArguments? (inside ++ ')' :: rest) = some (found, back ++ ')' :: rest) := by
  cases arguments with
  | @precision front digits precision back before number behind =>
    have parts : front ++ (digits ++ back) ++ ')' :: rest =
        front ++ (digits ++ (back ++ ')' :: rest)) := by simp
    have first := number_complete before number (digits_end behind ')' rfl rest)
    have comma : mark? ',' (back ++ ')' :: rest) = none := mark_other behind rfl (by decide) rest
    refine ⟨back, behind, ?_⟩
    rw [decimalArguments?, parts, first]
    simp only [Option.bind_eq_bind, Option.bind_some, comma, Option.bind_none]
  | @scale front digits precision middle between more scale back before number gap next places
      behind =>
    have parts :
        front ++ (digits ++ (middle ++ ',' :: (between ++ (more ++ back)))) ++ ')' :: rest =
        front ++ (digits ++ (middle ++ ',' :: (between ++ (more ++ (back ++ ')' :: rest))))) := by
      simp
    have first := number_complete before number
      (digits_end gap ',' rfl (between ++ (more ++ (back ++ ')' :: rest))))
    have second := number_complete next places (digits_end behind ')' rfl rest)
    have comma : mark? ',' (middle ++ ',' :: (between ++ (more ++ (back ++ ')' :: rest)))) =
        some (between ++ (more ++ (back ++ ')' :: rest))) := mark_complete gap rfl _
    refine ⟨back, behind, ?_⟩
    rw [decimalArguments?, parts, first]
    simp only [Option.bind_eq_bind, Option.bind_some, comma, second]

/-- Without a comma directly behind the digits there is no zone. -/
theorem timestamp_arguments_plain (first : number? text = some (n, rest))
    (other : ',' ∉ rest.head?) : timestampArguments? text = some (n, rest) := by
  rw [timestampArguments?, first]
  simp only [Option.bind_eq_bind, Option.bind_some]
  split
  · exact absurd rfl other
  · rfl

private theorem timestamp_arguments_complete (arguments : TimestampArguments inside digits)
    (rest : Text) : ∃ back, Layout back ∧
      timestampArguments? (inside ++ ')' :: rest) = some (digits, back ++ ')' :: rest) := by
  cases arguments with
  | @digits front text n back before number behind =>
    have parts : front ++ (text ++ back) ++ ')' :: rest =
        front ++ (text ++ (back ++ ')' :: rest)) := by simp
    have first := number_complete before number (digits_end behind ')' rfl rest)
    refine ⟨back, behind, ?_⟩
    rw [parts]
    apply timestamp_arguments_plain first
    cases back with
    | nil => simp
    | cons c back =>
      rintro ⟨⟩
      exact absurd (behind ',' List.mem_cons_self) (by decide)
  | @zone front text n zone before number inside =>
    have parts : front ++ (text ++ ',' :: zone) ++ ')' :: rest =
        front ++ (text ++ ',' :: (zone ++ ')' :: rest)) := by simp
    have first := number_complete before number
      (digits_end layout_nil ',' rfl (zone ++ ')' :: rest))
    have passed : ∀ c ∈ zone, (c != ')') = true := by
      intro c member
      exact bne_iff_ne.mpr fun same => inside (same ▸ member)
    have stops : (zone ++ ')' :: rest).dropWhile (· != ')') = ')' :: rest := by
      rw [List.dropWhile_append_of_pos passed]
      rfl
    refine ⟨[], layout_nil, ?_⟩
    rw [timestampArguments?, parts]
    rw [List.nil_append] at first
    rw [first]
    change some (digits, _) = _
    rw [stops]
    rfl

/-! ## Types -/

/-- A type begins without layout. -/
theorem core_solid (core : Core form text type) (rest : Text) :
    skipLayout (text ++ rest) = text ++ rest := by
  have named {name word : Text} (listed : name ∈ typeNames) (spells : Spells name word)
      (more : Text) : skipLayout (word ++ more) = word ++ more :=
    skip_word (name_word listed spells) more
  have calls {name word : Text} (listed : name ∈ typeNames) (spells : Spells name word)
      (front inside : Text) :
      skipLayout (called word front inside ++ rest) = called word front inside ++ rest := by
    rw [called, List.append_assoc]
    exact named listed spells _
  cases core with
  | scalar word plain each =>
    rw [List.append_assoc]
    exact skip_word word _
  | decimal name =>
    exact name.elim (fun spells => named (by decide) spells rest)
      (fun spells => named (by decide) spells rest)
  | decimalOf name gap arguments =>
    exact name.elim (fun spells => calls (by decide) spells _ _)
      (fun spells => calls (by decide) spells _ _)
  | timestamp name => exact named (by decide) name rest
  | timestampOf name gap arguments => exact calls (by decide) name _ _
  | nullable name gap member inner => exact calls (by decide) name _ _
  | array name gap member inner => exact calls (by decide) name _ _
  | tuple name gap members some each => exact calls (by decide) name _ _

private theorem wrapped_absent {reader : Text → Option (α × Text)}
    (absent : ∀ behind, Text.dropWord? name text = some behind → mark? '(' behind = none) :
    wrapped? name reader text = none := by
  rw [wrapped_eq]
  cases found : Text.dropWord? name text with
  | none => rfl
  | some behind => exact parenthesised_unopened (absent behind found)

/-- The alternatives that come after the wrappers. -/
theorem core_bare (nullable : wrapped? "nullable".toList (column? depth) text = none)
    (array : wrapped? "array".toList (column? depth) text = none)
    (tuple : wrapped? "tuple".toList (fun inside => list? (column? depth) inside inside) text =
      none) : core? depth text = (decimal? text <|> timestamp? text <|> scalar? text) := by
  rw [core?, nullable, array, tuple]
  rfl

/-- With a sized name in front, no wrapper is found. -/
theorem sized_bare (listed : name ∈ sizedNames) (spells : Spells name word) (rest : Text) :
    core? depth (word ++ rest) =
      (decimal? (word ++ rest) <|> timestamp? (word ++ rest) <|> scalar? (word ++ rest)) := by
  have apart : ∀ wrapper ∈ wrapperNames, ∀ sized ∈ sizedNames, wrapper ≠ sized := by decide
  have absent {α : Type} (reader : Text → Option (α × Text)) (wrapper : Text)
      (wraps : wrapper ∈ wrapperNames) : wrapped? wrapper reader (word ++ rest) = none :=
    wrapped_other (List.mem_append_left _ wraps) name (List.mem_append_right _ listed)
      (apart wrapper wraps name listed) spells rest
  exact core_bare (absent _ _ (by decide)) (absent _ _ (by decide)) (absent _ _ (by decide))

private theorem decimal_named (name : Spells "decimal".toList word ∨ Spells "numeric".toList word)
    (rest : Text) : decimal? (word ++ rest) =
      match parenthesised? decimalArguments? rest with
      | some ((precision, scale), after) => some (Column.decimalOf precision scale, after)
      | none => some (Column.decimalOf defaultDecimal.1 defaultDecimal.2, rest) := by
  rcases name with spells | spells
  · rw [decimal?, drop_spelled spells]
    rfl
  · rw [decimal?, drop_spelled spells, other_name (by decide) _ (by decide) (by decide) spells]
    rfl

theorem timestamp_named (name : Spells "datetime64".toList word) (rest : Text) :
    decimal? (word ++ rest) = none ∧ timestamp? (word ++ rest) =
      match parenthesised? timestampArguments? rest with
      | some (digits, after) => some (.timestamp {} digits, after)
      | none => some (Column.ofKind .timestamp, rest) := by
  constructor
  · rw [decimal?, other_name (by decide) _ (by decide) (by decide) name,
      other_name (by decide) _ (by decide) (by decide) name]
    rfl
  · rw [timestamp?, drop_spelled name]
    rfl

private theorem decimal_core (name : Spells "decimal".toList word ∨ Spells "numeric".toList word)
    (rest : Text) (found : decimal? (word ++ rest) = some (type, after)) :
    core? depth (word ++ rest) = some (type, after) := by
  have bare : core? depth (word ++ rest) = _ := name.elim
    (fun spells => sized_bare (by decide) spells rest)
    (fun spells => sized_bare (by decide) spells rest)
  rw [bare, found]
  rfl

theorem timestamp_core (name : Spells "datetime64".toList word) (rest : Text)
    (found : timestamp? (word ++ rest) = some (type, after)) :
    core? depth (word ++ rest) = some (type, after) := by
  rw [sized_bare (by decide) name, (timestamp_named name rest).1, found]
  rfl

/-- A word at the front of some text is part of the first word there. -/
theorem word_within (word : IsWord text) (next : NoWordNext more)
    (same : first ++ more = text ++ behind) :
    ∃ tail, first = text ++ tail ∧ behind = tail ++ more := by
  rcases List.append_eq_append_iff.mp same with ⟨tail, longer, parts⟩ | ⟨tail, parts, rest⟩
  · cases tail with
    | nil => exact ⟨[], by simpa using longer.symm, by simpa using parts.symm⟩
    | cons c tail =>
      have stops := next c (by rw [parts]; rfl)
      rw [word.2 c (by simp [longer])] at stops
      cases stops
  · exact ⟨tail, parts, rest⟩

private theorem words_next (each : ∀ other ∈ others, Further other) (next : NoWordNext rest) :
    NoWordNext (wordsOf others ++ rest) := by
  cases others with
  | nil => exact next
  | cons other others =>
    obtain ⟨first, -⟩ := List.forall_mem_cons.mp each
    simp only [wordsOf, List.flatMap_cons, List.append_assoc]
    exact layout_next first.apart first.layout

private theorem words_open (each : ∀ other ∈ others, Further other)
    (opens : mark? '(' rest = none) :
    mark? '(' (wordsOf others ++ rest) = none := by
  cases others with
  | nil => exact opens
  | cons other others =>
    obtain ⟨first, -⟩ := List.forall_mem_cons.mp each
    simp only [wordsOf, List.flatMap_cons, List.append_assoc]
    exact word_opens first.layout first.word _

private theorem further_words_complete (each : ∀ other ∈ others, Further other)
    (next : NoWordNext rest)
    (ends : ∀ within, furtherWords within rest = ([], rest))
    (room : others.length ≤ within.length) :
    furtherWords within (wordsOf others ++ rest) = (others.map Prod.snd, rest) := by
  induction others generalizing within with
  | nil => exact ends within
  | cons other others ih =>
    obtain ⟨first, each⟩ := List.forall_mem_cons.mp each
    cases within with
    | nil => cases room
    | cons w within =>
      have parts : wordsOf (other :: others) ++ rest =
          other.1 ++ (other.2 ++ (wordsOf others ++ rest)) := by simp [wordsOf]
      rw [parts, furtherWords, next_word_complete first.layout first.word (words_next each next)]
      dsimp only
      rw [first.plain, ih each (Nat.le_of_succ_le_succ room)]
      rfl

private theorem words_length (each : ∀ other ∈ others, Further other) :
    others.length ≤ (wordsOf others).length := by
  induction others with
  | nil => exact Nat.le_refl 0
  | cons other others ih =>
    obtain ⟨first, each⟩ := List.forall_mem_cons.mp each
    have some := List.length_pos_iff.mpr first.apart
    have behind := ih each
    simp only [wordsOf, List.flatMap_cons, List.length_append, List.length_cons] at behind ⊢
    omega

private theorem scalar_complete (word : IsWord first)
    (plain : ∀ name ∈ sizedNames, ∀ word rest, first = word ++ rest → ¬ Spells name word)
    (each : ∀ other ∈ others, Further other) (follows : Follows .words rest) :
    core? depth (first ++ wordsOf others ++ rest) =
      some (Column.ofKind ((Kind.ofWireName?
        (Text.joinWith [' '] (first :: others.map Prod.snd))).getD .unknown), rest) := by
  have next := words_next each (follows.next rfl)
  have within {name behind : Text} (listed : name ∈ typeNames)
      (found : Text.dropWord? name (first ++ (wordsOf others ++ rest)) = some behind) :
      ∃ word tail, Spells name word ∧ first = word ++ tail ∧
        behind = tail ++ (wordsOf others ++ rest) := by
    obtain ⟨word, same, spells⟩ := drop_word_iff.mp found
    obtain ⟨tail, parts, rest⟩ := word_within (name_word listed spells) next same
    exact ⟨word, tail, spells, parts, rest⟩
  have opens : ∀ name ∈ wrapperNames, ∀ behind,
      Text.dropWord? name (first ++ (wordsOf others ++ rest)) = some behind →
      mark? '(' behind = none := by
    intro name listed behind found
    obtain ⟨start, tail, -, parts, rfl⟩ := within (List.mem_append_left _ listed) found
    by_cases whole : tail = []
    · rw [whole]
      exact words_open each follows.opens
    · have rest : IsWord tail := ⟨whole, fun c member => word.2 c (by simp [parts, member])⟩
      exact word_opens layout_nil rest _
  have sized : ∀ name ∈ sizedNames,
      Text.dropWord? name (first ++ (wordsOf others ++ rest)) = none := by
    intro name listed
    rw [Option.eq_none_iff_forall_ne_some]
    intro behind found
    obtain ⟨start, tail, spells, parts, -⟩ := within (List.mem_append_right _ listed) found
    exact plain name listed start tail parts spells
  have decimal : decimal? (first ++ (wordsOf others ++ rest)) = none := by
    rw [decimal?, sized _ (by decide), sized _ (by decide)]
    rfl
  have timestamp : timestamp? (first ++ (wordsOf others ++ rest)) = none := by
    rw [timestamp?, sized _ (by decide)]
    rfl
  have room : others.length ≤ (wordsOf others ++ rest).length := by
    have words := words_length each
    rw [List.length_append]
    omega
  have read := next_word_complete layout_nil word next
  rw [List.nil_append] at read
  have bare {α : Type} (reader : Text → Option (α × Text)) (name : Text)
      (listed : name ∈ wrapperNames) :
      wrapped? name reader (first ++ (wordsOf others ++ rest)) = none :=
    wrapped_absent (opens name listed)
  rw [List.append_assoc, core_bare (bare _ _ (by decide)) (bare _ _ (by decide))
    (bare _ _ (by decide)), decimal, timestamp]
  change scalar? _ = _
  rw [scalar?, read]
  simp only [Option.bind_eq_bind, Option.bind_some,
    further_words_complete each (follows.next rfl) follows.ends room]

/-- A type is read, whatever may follow it, where the depth has room for its characters. -/
def IsRead (form : Form) (text : Text) (type : Column) : Prop :=
  ∀ depth rest, text.length ≤ depth → Follows form rest →
    core? depth (text ++ rest) = some (type, rest)

theorem member_complete (member : Member) (core : Core member.form member.core member.type)
    (read : IsRead member.form member.core member.type) (room : member.core.length < depth)
    (closes : Closes rest) :
    column? depth (member.text ++ rest) = some (member.column, member.back ++ rest) := by
  obtain ⟨depth, rfl⟩ := Nat.exists_eq_add_one_of_ne_zero (Nat.ne_zero_of_lt room)
  have ends : Closes (member.back ++ rest) := (closes_layout member.back_layout).mpr closes
  have start : skipLayout (member.text ++ rest) =
      member.core ++ (member.suffix ++ (member.back ++ rest)) := by
    simp only [Member.text, List.append_assoc]
    rw [skip_layout member.front_layout, core_solid core]
  rw [column_eq, start, read depth _ (Nat.le_of_lt_succ room)
    (suffix_follows member.null_suffix ends member.apart)]
  simp only [Option.map_some, null_suffix_complete member.null_suffix ends]
  rfl

private theorem list_complete {item : Text → Option (Column × Text)} (members : List Member)
    (some : members ≠ []) (room : members.length ≤ within.length)
    (read : ∀ member ∈ members, ∀ rest, Closes rest →
      item (member.text ++ rest) = .some (member.column, member.back ++ rest)) :
    ∃ back, Layout back ∧
      list? item within (Text.joinWith [','] (members.map Member.text) ++ ')' :: rest) =
        .some (members.map Member.column, back ++ ')' :: rest) := by
  induction members generalizing within with
  | nil => exact absurd rfl some
  | cons member members ih =>
    obtain ⟨first, others⟩ := List.forall_mem_cons.mp read
    cases within with
    | nil => cases room
    | cons w within =>
      cases members with
      | nil =>
        have comma : mark? ',' (member.back ++ ')' :: rest) = none :=
          mark_other member.back_layout rfl (by decide) rest
        have last := first (')' :: rest) (closes_mark (.inl rfl) rest)
        refine ⟨member.back, member.back_layout, ?_⟩
        simp only [List.map_cons, List.map_nil, Text.joinWith, list?, last, Option.bind_eq_bind,
          Option.bind_some, comma, Option.bind_none]
      | cons next more =>
        obtain ⟨back, layout, behind⟩ :=
          ih (List.cons_ne_nil next more) (Nat.le_of_succ_le_succ room) others
        refine ⟨back, layout, ?_⟩
        have comma (others : Text) : mark? ',' (member.back ++ ',' :: others) = .some others :=
          mark_complete member.back_layout rfl others
        have parts : Text.joinWith [','] ((member :: next :: more).map Member.text) ++ ')' :: rest =
            member.text ++ ',' ::
              (Text.joinWith [','] ((next :: more).map Member.text) ++ ')' :: rest) := by
          simp [Text.joinWith]
        rw [parts, list?, first _ (closes_mark (.inr rfl) _)]
        simp only [Option.bind_eq_bind, Option.bind_some, comma, behind]
        rfl

private theorem called_length (name gap inside : Text) :
    (called name gap inside).length = name.length + gap.length + inside.length + 2 := by
  simp only [called, List.length_append, List.length_cons, List.length_nil]
  omega

theorem core_length (member : Member) : member.core.length ≤ member.text.length := by
  simp only [Member.text, List.length_append]
  omega

private theorem joined_length (texts : List Text) :
    texts.length ≤ (Text.joinWith [','] texts).length + 1 ∧
      ∀ text ∈ texts, text.length ≤ (Text.joinWith [','] texts).length := by
  induction texts with
  | nil => simp
  | cons text texts ih =>
    cases texts with
    | nil => simp [Text.joinWith]
    | cons next more =>
      obtain ⟨number, each⟩ := ih
      have shape : Text.joinWith [','] (text :: next :: more) =
        text ++ ',' :: Text.joinWith [','] (next :: more) := by simp [Text.joinWith]
      rw [shape]
      simp only [List.length_append, List.length_cons] at number each ⊢
      refine ⟨by omega, List.forall_mem_cons.mpr ⟨by omega, fun other member => ?_⟩⟩
      have := each other member
      omega

private theorem nullable_complete (name : Spells "nullable".toList word) (gap : Layout front)
    (member : Member) (core : Core member.form member.core member.type)
    (read : IsRead member.form member.core member.type) :
    IsRead .closed (called word front member.text) (member.column.orNull true) := by
  intro depth rest room follows
  have fits : member.core.length < depth := by
    have shorter := core_length member
    rw [called_length] at room
    omega
  have inside := member_complete member core read fits (closes_mark (.inl rfl) rest)
  rw [called_append, core?, wrapped_complete name gap member.back_layout inside]
  rfl

private theorem array_complete (name : Spells "array".toList word) (gap : Layout front)
    (member : Member) (core : Core member.form member.core member.type)
    (read : IsRead member.form member.core member.type) :
    IsRead .closed (called word front member.text) (Column.arrayOf member.column) := by
  intro depth rest room follows
  have fits : member.core.length < depth := by
    have shorter := core_length member
    rw [called_length] at room
    omega
  have inside := member_complete member core read fits (closes_mark (.inl rfl) rest)
  rw [called_append, core?, wrapped_other (by decide) _ (by decide) (by decide) name,
    wrapped_complete name gap member.back_layout inside]
  rfl

private theorem tuple_complete (name : Spells "tuple".toList word) (gap : Layout front)
    (members : List Member) (some : members ≠ [])
    (each : ∀ member ∈ members, Core member.form member.core member.type)
    (read : ∀ member ∈ members, IsRead member.form member.core member.type) :
    IsRead .closed (called word front (Text.joinWith [','] (members.map Member.text)))
      (Column.tupleOf (members.map Member.column)) := by
  intro depth rest room follows
  obtain ⟨number, shorter⟩ := joined_length (members.map Member.text)
  rw [called_length] at room
  have item : ∀ member ∈ members, ∀ rest, Closes rest →
      column? depth (member.text ++ rest) = .some (member.column, member.back ++ rest) := by
    intro member listed rest closes
    have short := shorter _ (List.mem_map_of_mem listed)
    have core := core_length member
    exact member_complete member (each member listed) (read member listed) (by omega) closes
  have within : members.length ≤
      (Text.joinWith [','] (members.map Member.text) ++ ')' :: rest).length := by
    simp only [List.length_map, List.length_append, List.length_cons] at number ⊢
    omega
  obtain ⟨back, layout, inside⟩ := list_complete members some within item
  have found : wrapped? "tuple".toList (fun inside => list? (column? depth) inside inside) _ = _ :=
    wrapped_complete name gap layout inside
  rw [called_append, core?, wrapped_other (by decide) _ (by decide) (by decide) name,
    wrapped_other (by decide) _ (by decide) (by decide) name, found]
  rfl

private theorem decimal_complete
    (name : Spells "decimal".toList word ∨ Spells "numeric".toList word)
    (gap : Layout front) (arguments : DecimalArguments inside (precision, scale)) :
    IsRead .closed (called word front inside) (Column.decimalOf precision scale) := by
  intro depth rest room follows
  obtain ⟨back, layout, read⟩ := decimal_arguments_complete arguments rest
  rw [called_append]
  apply decimal_core name
  rw [decimal_named name, parenthesised_complete gap layout read]

private theorem timestamp_complete (name : Spells "datetime64".toList word) (gap : Layout front)
    (arguments : TimestampArguments inside digits) :
    IsRead .closed (called word front inside) (.timestamp {} digits) := by
  intro depth rest room follows
  obtain ⟨back, layout, read⟩ := timestamp_arguments_complete arguments rest
  rw [called_append]
  apply timestamp_core name
  rw [(timestamp_named name _).2, parenthesised_complete gap layout read]

/-- Every type of the grammar is read. -/
theorem core_complete (core : Core form text type) : IsRead form text type := by
  induction core with
  | scalar word plain each =>
    exact fun depth rest room follows => scalar_complete word plain each follows
  | decimal name =>
    intro depth rest room follows
    apply decimal_core name
    rw [decimal_named name, parenthesised_unopened follows.opens]
  | decimalOf name gap arguments => exact decimal_complete name gap arguments
  | timestamp name =>
    intro depth rest room follows
    apply timestamp_core name
    rw [(timestamp_named name rest).2, parenthesised_unopened follows.opens]
  | timestampOf name gap arguments => exact timestamp_complete name gap arguments
  | nullable name gap member inner ih => exact nullable_complete name gap member inner ih
  | array name gap member inner ih => exact array_complete name gap member inner ih
  | tuple name gap members some each ih => exact tuple_complete name gap members some each ih

private theorem layout_blank (layout : Layout gap) : Text.allBlank gap = true := by
  rw [Text.allBlank, List.all_eq_true]
  intro c member
  rcases layout_char (layout c member) with rfl | rfl | rfl | rfl <;> decide +kernel

theorem names_read (names : Names text column) : read? text = some column := by
  obtain ⟨-, rest, rfl, ⟨member, rfl, rfl, core⟩, blank⟩ := names
  have shorter := core_length member
  have room : member.core.length < (member.text ++ rest).length + 1 := by
    rw [List.length_append]
    omega
  have behind : Text.allBlank (member.back ++ rest) = true := by
    have back := layout_blank member.back_layout
    rw [Text.allBlank] at back blank ⊢
    rw [List.all_append, back, blank, Bool.and_self]
  rw [read?, member_complete member core (core_complete core) room (closes_blank blank)]
  exact if_pos behind

/-- What is read is what the grammar names. -/
theorem read_iff : read? text = some column ↔ Names text column := ⟨read_names, names_read⟩

theorem whole_read (whole : Whole text column) : read? text = some column :=
  read_iff.mpr ⟨text, [], (List.append_nil text).symm, whole, rfl⟩

end SqlWire.TypeGrammar
