import Mathlib.Data.List.Forall2
import Mathlib.Tactic.IntervalCases
import SqlWire.Proofs.TypeGrammar

/-! The case of letters in a type name does not matter, whether or not the text names a type at
all. Every reader finds in a text in small letters what it finds in the text as written, and what
it leaves is then in small letters as well. So two texts that differ in case only are both read as
the one in small letters is. -/
namespace SqlWire.TypeCase
open SqlWire.TypeName TypeGrammar NumeralText

/-- The same character, or the two cases of one letter of the alphabet. -/
def SameLetter (c d : Char) : Prop :=
  c = d ∨ (c.isUpper = true ∧ d = c.toLower) ∨ (d.isUpper = true ∧ c = d.toLower)

instance : DecidableRel SameLetter := fun c d =>
  inferInstanceAs (Decidable (c = d ∨ (c.isUpper = true ∧ d = c.toLower) ∨ _))

/-- Two texts that differ in the case of letters at most. -/
def DiffersInCase (left right : Text) : Prop := List.Forall₂ SameLetter left right

instance : DecidableRel DiffersInCase := fun left right =>
  inferInstanceAs (Decidable (List.Forall₂ SameLetter left right))

/-! ## Letters -/

def capitals : Text := "ABCDEFGHIJKLMNOPQRSTUVWXYZ".toList

private theorem capital_listed (capital : c.isUpper = true) : c ∈ capitals := by
  have number : c = Char.ofNat c.toNat := (Char.ofNat_toNat c).symm
  obtain ⟨above, below⟩ := of_decide_eq_true capital
  have above : 65 ≤ c.toNat := above
  have below : c.toNat ≤ 90 := below
  rw [number]
  generalize c.toNat = n at above below
  interval_cases n <;> decide

/-- What holds of the capitals and of their small letters alike does not depend on case. -/
theorem lower_same [BEq β] [LawfulBEq β] {f : Char → β}
    (same : capitals.all (fun c => f c.toLower == f c) = true) (c : Char) :
    f c.toLower = f c := by
  by_cases capital : c.isUpper = true
  · exact eq_of_beq (List.all_eq_true.mp same c (capital_listed capital))
  · have small : c.toLower = c := dif_neg fun upper => capital (decide_eq_true upper)
    rw [small]

private theorem lower_lower (c : Char) : c.toLower.toLower = c.toLower := lower_same (by rfl) c

private theorem lower_layout (c : Char) : Text.isLayout c.toLower = Text.isLayout c :=
  lower_same (by rfl) c

theorem lower_blank (c : Char) : Text.isBlank c.toLower = Text.isBlank c := lower_same (by rfl) c

private theorem lower_digit_char (c : Char) : c.toLower.isDigit = c.isDigit :=
  lower_same (f := Char.isDigit) (by rfl) c

private theorem lower_word_char (c : Char) : isWordChar c.toLower = isWordChar c :=
  lower_same (by rfl) c

theorem same_letter_lower (same : SameLetter c d) : c.toLower = d.toLower := by
  rcases same with rfl | ⟨-, rfl⟩ | ⟨-, rfl⟩
  · rfl
  · exact (lower_lower c).symm
  · exact lower_lower d

/-- Texts that differ in case only are one text in small letters. -/
theorem same_fold (alike : DiffersInCase left right) : Text.fold left = Text.fold right := by
  induction alike with
  | nil => rfl
  | cons same others ih => exact congrArg₂ List.cons (same_letter_lower same) ih

/-- Only capitals have a small letter other than themselves. -/
theorem lower_small (small : c.isUpper = false) : Char.toLower c = c :=
  dif_neg fun upper => Bool.eq_false_iff.mp small (decide_eq_true upper)

/-- A capital is got back from its small letter. -/
private theorem capital_back {c : Char} (capital : c.isUpper = true) : c.toLower.toUpper = c := by
  have back : capitals.all (fun c => c.toLower.toUpper == c) = true := by rfl
  exact eq_of_beq (List.all_eq_true.mp back c (capital_listed capital))

/-- Characters with one small letter are the same letter. -/
theorem lower_same_letter (same : c.toLower = d.toLower) : SameLetter c d := by
  cases first : c.isUpper with
  | true =>
    cases second : d.isUpper with
    | true => exact .inl (by rw [← capital_back first, same, capital_back second])
    | false => exact .inr (.inl ⟨first, by rw [same, lower_small second]⟩)
  | false =>
    rw [lower_small first] at same
    cases second : d.isUpper with
    | true => exact .inr (.inr ⟨second, same⟩)
    | false => exact .inl (same.trans (lower_small second))

theorem same_folded_iff : Text.sameFolded left right = true ↔ DiffersInCase left right := by
  rw [Text.sameFolded, beq_iff_eq]
  refine ⟨fun same => ?_, same_fold⟩
  induction left generalizing right with
  | nil =>
    rw [List.map_eq_nil_iff.mp same.symm]
    exact .nil
  | cons c left ih =>
    obtain ⟨d, others, rfl, first, rest⟩ := List.map_eq_cons_iff.mp same.symm
    exact .cons (lower_same_letter first.symm) (ih rest.symm)

private theorem fold_fold (text : Text) : Text.fold (Text.fold text) = Text.fold text := by
  rw [Text.fold, Text.fold, List.map_map]
  exact List.map_congr_left fun c _ => lower_lower c

private theorem fold_take {p : Char → Bool} (blind : ∀ c, p c.toLower = p c) (text : Text) :
    (Text.fold text).takeWhile p = Text.fold (text.takeWhile p) := by
  have same : p ∘ Char.toLower = p := funext blind
  rw [Text.fold, List.takeWhile_map, same, Text.fold]

private theorem fold_drop {p : Char → Bool} (blind : ∀ c, p c.toLower = p c) (text : Text) :
    (Text.fold text).dropWhile p = Text.fold (text.dropWhile p) := by
  have same : p ∘ Char.toLower = p := funext blind
  rw [Text.fold, List.dropWhile_map, same, Text.fold]

private theorem fold_layout (text : Text) :
    skipLayout (Text.fold text) = Text.fold (skipLayout text) :=
  fold_drop lower_layout text

private theorem fold_digits (digits : AllDigits text) : Text.fold text = text :=
  (List.map_congr_left fun c member => digit_lower (digits c member)).trans (List.map_id text)

private theorem fold_joined (glue : Text) (pieces : List Text) :
    Text.fold (Text.joinWith glue pieces) =
      Text.joinWith (Text.fold glue) (pieces.map Text.fold) := by
  fun_induction Text.joinWith glue pieces with
  | case1 => rfl
  | case2 last => rfl
  | case3 piece next others ih =>
    simp only [List.map_cons] at ih
    simp only [Text.fold, List.map_append, List.map_cons, Text.joinWith] at ih ⊢
    rw [ih]

/-! ## Readers -/

/-- Case is nothing to a reader: in a text in small letters it finds the same, and what it leaves
is left in small letters. -/
def CaseBlind (reader : Text → Option (α × Text)) : Prop :=
  ∀ text, reader (Text.fold text) = (reader text).map (Prod.map id Text.fold)

section Readers
variable {α β : Type}

private theorem lower_mark
    (plain : capitals.all (fun c => (c.toLower == mark) == (c == mark)) = true)
    (c : Char) : c.toLower = mark ↔ c = mark := by
  have equal := lower_same (f := (· == mark)) plain c
  simpa only [beq_eq_beq, beq_iff_eq] using Bool.eq_iff_iff.mp equal

/-- A mark that is no letter stands where it stands, whatever the case around it. -/
theorem mark_fold (plain : ∀ c : Char, c.toLower = mark ↔ c = mark) (text : Text) :
    mark? mark (Text.fold text) = (mark? mark text).map Text.fold := by
  rw [mark?, mark?, fold_layout]
  cases skipLayout text with
  | nil => rfl
  | cons c rest =>
    simp only [Text.fold, List.map_cons, plain c]
    split <;> rfl

private theorem opening_fold (text : Text) :
    mark? '(' (Text.fold text) = (mark? '(' text).map Text.fold :=
  mark_fold (lower_mark (by rfl)) text

private theorem closing_fold (text : Text) :
    mark? ')' (Text.fold text) = (mark? ')' text).map Text.fold :=
  mark_fold (lower_mark (by rfl)) text

private theorem comma_fold (text : Text) :
    mark? ',' (Text.fold text) = (mark? ',' text).map Text.fold :=
  mark_fold (lower_mark (by rfl)) text

private theorem word_fold (word text : Text) :
    Text.dropWord? word (Text.fold text) = (Text.dropWord? word text).map Text.fold := by
  induction word generalizing text with
  | nil => rfl
  | cons w word ih =>
    cases text with
    | nil => rfl
    | cons c text =>
      have behind := ih text
      simp only [Text.fold, List.map_cons, Text.dropWord?, lower_lower] at behind ⊢
      split
      · exact behind
      · rfl

private theorem number_blind : CaseBlind number? := by
  intro text
  have digits : AllDigits ((skipLayout text).takeWhile Char.isDigit) :=
    fun c member => List.mem_takeWhile_imp member
  rw [number?, number?, fold_layout, fold_take lower_digit_char, fold_drop lower_digit_char,
    fold_digits digits]
  split
  · rfl
  · rfl

private theorem map_blind {reader : Text → Option (α × Text)} (blind : CaseBlind reader)
    (f : α → β) :
    CaseBlind fun text => (reader text).map (Prod.map f id) := by
  intro text
  beta_reduce
  rw [blind text]
  cases reader text <;> rfl

private theorem either_blind {first second : Text → Option (α × Text)} (one : CaseBlind first)
    (two : CaseBlind second) : CaseBlind fun text => first text <|> second text := by
  intro text
  beta_reduce
  rw [one text, two text]
  cases first text <;> rfl

private theorem parenthesised_blind {inside : Text → Option (α × Text)} (blind : CaseBlind inside) :
    CaseBlind (parenthesised? inside) := by
  intro text
  rw [parenthesised?, parenthesised?, opening_fold]
  cases mark? '(' text with
  | none => rfl
  | some behind =>
    simp only [Option.map_some, Option.bind_eq_bind, Option.bind_some, blind behind]
    cases inside behind with
    | none => rfl
    | some read =>
      obtain ⟨found, rest⟩ := read
      simp only [Option.map_some, Option.bind_some, Prod.map_apply, closing_fold]
      cases mark? ')' rest <;> rfl

private theorem wrapped_blind {inside : Text → Option (α × Text)} (name : Text)
    (blind : CaseBlind inside) : CaseBlind (wrapped? name inside) := by
  intro text
  rw [wrapped?, wrapped?, word_fold]
  cases Text.dropWord? name text with
  | none => rfl
  | some behind => exact parenthesised_blind blind behind

private theorem decimal_arguments_blind : CaseBlind decimalArguments? := by
  intro text
  rw [decimalArguments?, decimalArguments?, number_blind]
  cases number? text with
  | none => rfl
  | some read =>
    obtain ⟨precision, rest⟩ := read
    simp only [Option.map_some, Option.bind_eq_bind, Option.bind_some, Prod.map_apply, id_eq,
      comma_fold]
    cases mark? ',' rest with
    | none => rfl
    | some behind =>
      simp only [Option.map_some, Option.bind_some, number_blind behind]
      cases number? behind <;> rfl

/-- A time zone goes as far as it goes, and its letters are dropped. -/
theorem timestamp_arguments_blind : CaseBlind timestampArguments? := by
  intro text
  rw [timestampArguments?, timestampArguments?, number_blind]
  cases number? text with
  | none => rfl
  | some read =>
    obtain ⟨digits, rest⟩ := read
    have closing (c : Char) : (c.toLower != ')') = (c != ')') :=
      lower_same (f := (· != ')')) (by rfl) c
    cases rest with
    | nil => rfl
    | cons c zone =>
      by_cases comma : c = ','
      · subst comma
        have left := fold_drop (p := (· != ')')) closing zone
        exact congrArg (fun rest => some (digits, rest)) left
      · have other : c.toLower ≠ ',' := mt (lower_mark (by rfl) c).mp comma
        simp only [Option.map_some, Option.bind_eq_bind, Option.bind_some, Prod.map_apply, id_eq,
          Text.fold, List.map_cons]
        split
        next same => exact absurd (List.cons.inj same).1 other
        · split
          next same => exact absurd (List.cons.inj same).1 comma
          · rfl

private theorem decimal_blind : CaseBlind decimal? := by
  intro text
  have named : (Text.dropWord? "decimal".toList (Text.fold text) <|>
      Text.dropWord? "numeric".toList (Text.fold text)) =
      (Text.dropWord? "decimal".toList text <|>
        Text.dropWord? "numeric".toList text).map Text.fold := by
    rw [word_fold, word_fold]
    cases Text.dropWord? "decimal".toList text <;> rfl
  rw [decimal?, decimal?, named]
  cases Text.dropWord? "decimal".toList text <|> Text.dropWord? "numeric".toList text with
  | none => rfl
  | some rest =>
    simp only [Option.map_some, Option.bind_eq_bind, Option.bind_some,
      parenthesised_blind decimal_arguments_blind rest]
    cases parenthesised? decimalArguments? rest <;> rfl

private theorem timestamp_blind : CaseBlind timestamp? := by
  intro text
  rw [timestamp?, timestamp?, word_fold]
  cases Text.dropWord? "datetime64".toList text with
  | none => rfl
  | some rest =>
    simp only [Option.map_some, Option.bind_eq_bind, Option.bind_some,
      parenthesised_blind timestamp_arguments_blind rest]
    cases parenthesised? timestampArguments? rest <;> rfl

/-- The next word of a text in small letters is the next word in small letters. -/
theorem next_word_fold (text : Text) :
    nextWord? (Text.fold text) = (nextWord? text).map (Prod.map Text.fold Text.fold) := by
  have empty (word : Text) : (Text.fold word).isEmpty = word.isEmpty := List.isEmpty_map
  rw [nextWord?, nextWord?, fold_layout, fold_take lower_word_char, fold_drop lower_word_char]
  simp only [empty]
  split <;> rfl

private theorem suffix_fold (word : Text) : beginsSuffix (Text.fold word) = beginsSuffix word := by
  simp only [beginsSuffix, Text.sameFolded, fold_fold]

private theorem further_words_fold (within text : Text) :
    furtherWords (Text.fold within) (Text.fold text) =
      ((furtherWords within text).1.map Text.fold, Text.fold (furtherWords within text).2) := by
  induction within generalizing text with
  | nil => rfl
  | cons w within ih =>
    have step : Text.fold (w :: within) = w.toLower :: Text.fold within := rfl
    rw [step, furtherWords, furtherWords, next_word_fold]
    cases nextWord? text with
    | none => rfl
    | some read =>
      obtain ⟨word, rest⟩ := read
      simp only [Option.map_some, Prod.map_apply, suffix_fold, ih]
      split <;> rfl

private theorem wire_name_fold (name : Text) :
    Kind.ofWireName? (Text.fold name) = Kind.ofWireName? name := by
  simp only [Kind.ofWireName?, Text.sameFolded, fold_fold]

/-- The words of a scalar are looked up in any case. -/
theorem scalar_blind : CaseBlind scalar? := by
  intro text
  rw [scalar?, scalar?, next_word_fold]
  cases nextWord? text with
  | none => rfl
  | some read =>
    obtain ⟨first, rest⟩ := read
    have joined := fold_joined [' '] (first :: (furtherWords rest rest).1)
    rw [List.map_cons] at joined
    have name := wire_name_fold (Text.joinWith [' '] (first :: (furtherWords rest rest).1))
    rw [joined] at name
    simp only [Option.map_some, Option.bind_eq_bind, Option.bind_some, Prod.map_apply,
      further_words_fold]
    exact congrArg (fun kind => some (Column.ofKind (Option.getD kind .unknown), _)) name

private theorem not_null_fold (text : Text) :
    notNull? (Text.fold text) = (notNull? text).map Text.fold := by
  rw [notNull?, notNull?, fold_layout, word_fold]
  cases Text.dropWord? "not".toList (skipLayout text) with
  | none => rfl
  | some behind =>
    cases behind with
    | nil => rfl
    | cons c rest =>
      have read := word_fold "null".toList (skipLayout (c :: rest))
      rw [← fold_layout] at read
      simp only [Option.map_some, Option.bind_eq_bind, Option.bind_some, Text.fold, List.map_cons,
        lower_layout] at read ⊢
      split
      · exact read
      · rfl

private theorem null_suffix_fold (text : Text) :
    nullSuffix (Text.fold text) = Prod.map id Text.fold (nullSuffix text) := by
  rw [nullSuffix, nullSuffix, not_null_fold]
  cases notNull? text with
  | some rest => rfl
  | none =>
    simp only [Option.map_none, fold_layout, word_fold]
    cases Text.dropWord? "null".toList (skipLayout text) <;> rfl

private theorem list_fold {item : Text → Option (α × Text)} (blind : CaseBlind item)
    (within text : Text) : list? item (Text.fold within) (Text.fold text) =
      (list? item within text).map (Prod.map id Text.fold) := by
  induction within generalizing text with
  | nil => rfl
  | cons w within ih =>
    have step : Text.fold (w :: within) = w.toLower :: Text.fold within := rfl
    rw [step, list?, list?, blind text]
    cases item text with
    | none => rfl
    | some read =>
      obtain ⟨first, rest⟩ := read
      simp only [Option.map_some, Option.bind_eq_bind, Option.bind_some, Prod.map_apply, id_eq,
        comma_fold]
      cases mark? ',' rest with
      | none => rfl
      | some behind =>
        simp only [Option.map_some, Option.bind_some, ih]
        cases list? item within behind <;> rfl

end Readers

/-! ## Whole types -/

/-- Each alternative of a type is found in small letters where it is found as written. -/
theorem core_blind (blind : CaseBlind (column? depth)) : CaseBlind (core? depth) := by
  have lists : CaseBlind fun inside => list? (column? depth) inside inside :=
    fun text => list_fold blind text text
  exact either_blind (map_blind (wrapped_blind "nullable".toList blind) (·.orNull true)) <|
    either_blind (map_blind (wrapped_blind "array".toList blind) Column.arrayOf) <|
    either_blind (map_blind (wrapped_blind "tuple".toList lists) Column.tupleOf) <|
    either_blind decimal_blind <| either_blind timestamp_blind scalar_blind

/-- The induction is on the depth of the wrappers. -/
theorem column_blind (depth : Nat) : CaseBlind (column? depth) := by
  induction depth with
  | zero => exact fun _ => rfl
  | succ depth ih =>
    intro text
    rw [column_eq, column_eq, fold_layout, core_blind ih]
    cases core? depth (skipLayout text) with
    | none => rfl
    | some read =>
      obtain ⟨type, rest⟩ := read
      simp only [Option.map_some, Prod.map_apply, id_eq, null_suffix_fold, Prod.map_fst,
        Prod.map_snd]

private theorem fold_blank (text : Text) : Text.allBlank (Text.fold text) = Text.allBlank text := by
  rw [Text.allBlank, Text.fold, List.all_map]
  exact congrArg (List.all text) (funext lower_blank)

/-- A text in small letters names what it names as written. -/
theorem read_fold (text : Text) : read? (Text.fold text) = read? text := by
  have length : (Text.fold text).length = text.length := List.length_map _
  rw [read?, read?, length, column_blind]
  cases column? (text.length + 1) text with
  | none => rfl
  | some read =>
    obtain ⟨column, rest⟩ := read
    simp only [Option.map_some, Prod.map_apply, id_eq, fold_blank]

/-- Two type texts that differ in the case of letters only are both types of the same column or
both none. A header that declares them declares the same column, but for the text itself. -/
theorem type_case_ignored (alike : DiffersInCase left right) (name : Text) :
    read? left = read? right ∧
    Column.ofDeclaration name right = (Column.ofDeclaration name left).declaredAs name right := by
  have same : read? left = read? right := by
    rw [← read_fold left, ← read_fold right, same_fold alike]
  refine ⟨same, ?_⟩
  rw [Column.ofDeclaration, Column.ofDeclaration, same]
  cases (read? right).getD (Column.ofKind .unknown) <;> rfl

/-- Wrappers, arguments, a time zone, a name of two words and suffixes, one text in each case. -/
theorem mixed_case_ignored :
    let left := "Tuple(Nullable(DateTime64(3,'utc')), double PRECISION, Decimal(9) null)".toList
    let right := "tUPLE(nULLABLE(dATEtIME64(3,'UTC')), DOUBLE precision, dECIMAL(9) NULL)".toList
    DiffersInCase left right ∧
    Column.ofDeclaration ['c'] left = (Column.tupleOf [(Column.timestamp {} 3).orNull true,
      Column.ofKind .double, (Column.decimalOf 9 0).orNull true]).declaredAs ['c'] left ∧
    read? left = read? right ∧
    Column.ofDeclaration ['c'] right =
      (Column.ofDeclaration ['c'] left).declaredAs ['c'] right := by
  intro left right
  have alike : DiffersInCase left right := by decide +kernel
  exact ⟨alike, by rfl, type_case_ignored alike ['c']⟩

end SqlWire.TypeCase
