import SqlWire.Script.Target
import SqlWire.Proofs.Cleaning
import SqlWire.Proofs.TypeCase
import SqlWire.Proofs.Utf8Text

/-! Searching bytes for a keyword. The words of a text are its longest runs of word
characters outside quotes, as the lexis cuts it. The search sees bytes only: the bytes of a
word character are word bytes, and no byte of a character can be taken for a quote or a
backslash but its own, so the search is in step with the lexis over every lexeme and stops
behind the first word that is the keyword. -/
namespace SqlWire.KeywordSearch
open Target Lexeme Lexis Cleaning TypeCase

/-! ## Characters as bytes -/

/-- The bytes of a character beyond ASCII are beyond it too. -/
theorem byte_beyond (beyond : 128 ≤ c.toNat) (member : b ∈ String.utf8EncodeChar c) :
    128 ≤ b.toNat := by
  by_contra ascii
  have number : c.toNat = b.toNat := Utf8Text.ascii_number member (Nat.lt_of_not_le ascii)
  omega

/-- The byte of an ASCII character. -/
def byteOf (c : Char) : UInt8 := UInt8.ofNat c.toNat

theorem ascii_byte (ascii : c.toNat < 128) :
    String.utf8EncodeChar c = [byteOf c] := by
  have small : c.val.toNat ≤ 127 := Nat.le_of_lt_succ ascii
  unfold String.utf8EncodeChar
  exact if_pos small

/-- What holds of each ASCII character in turn. -/
theorem ascii_all {p : Char → Prop} (each : ∀ n : Fin 128, p (Char.ofNat n))
    (ascii : c.toNat < 128) : p c := by
  have same : Char.ofNat c.toNat = c := Char.ofNat_toNat c
  exact same ▸ each ⟨c.toNat, ascii⟩

private theorem word_byte (member : b ∈ String.utf8EncodeChar c) : isWordByte b = isWordChar c := by
  by_cases ascii : c.toNat < 128
  · rw [ascii_byte ascii, List.mem_singleton] at member
    subst member
    exact ascii_all (p := fun c => isWordByte (byteOf c) = isWordChar c)
      (by decide) ascii
  · have beyond := Nat.le_of_not_lt ascii
    have high : (0x80 : UInt8) ≤ b := UInt8.le_iff_toNat_le.mpr (byte_beyond beyond member)
    have word : isWordChar c = true := by simp [isWordChar, beyond]
    simp [isWordByte, high, word]

/-- No byte but its own can be taken for an ASCII character. -/
theorem byte_of_ascii (ascii : d.toNat < 128) (member : byteOf d ∈ String.utf8EncodeChar c) :
    c = d := by
  have number : (byteOf d).toNat = d.toNat := Utf8Text.byte_number (by omega)
  have same := Utf8Text.ascii_number member (number.symm ▸ ascii)
  rw [number] at same
  exact Char.ext (UInt32.toNat_inj.mp same)

/-- Small letters in bytes are small letters in characters. -/
theorem lower_bytes (c : Char) :
    String.utf8EncodeChar c.toLower = (String.utf8EncodeChar c).map lowerByte := by
  by_cases ascii : c.toNat < 128
  · exact ascii_all (p := fun c => String.utf8EncodeChar c.toLower =
      (String.utf8EncodeChar c).map lowerByte) (by decide) ascii
  · have beyond := Nat.le_of_not_lt ascii
    have small : c.isUpper = false := by
      rw [Bool.eq_false_iff]
      intro capital
      have last : c.toNat ≤ 90 := UInt32.le_iff_toNat_le.mp (of_decide_eq_true capital).2
      omega
    have kept : ∀ b ∈ String.utf8EncodeChar c, lowerByte b = id b := by
      intro b member
      have high := byte_beyond beyond member
      apply if_neg
      rw [Bool.and_eq_true, decide_eq_true_eq, decide_eq_true_eq]
      rintro ⟨-, last⟩
      have last : b.toNat ≤ 90 := UInt8.le_iff_toNat_le.mp last
      omega
    rw [lower_small small, List.map_congr_left kept, List.map_id]

private theorem fold_bytes (text : Text) :
    Text.toUtf8 (Text.fold text) = (Text.toUtf8 text).map lowerByte := by
  rw [Text.toUtf8, Text.fold, List.flatMap_map, Text.toUtf8, List.map_flatMap]
  exact congrArg (text.flatMap ·) (funext lower_bytes)

private theorem bytes_injective (same : Text.toUtf8 left = Text.toUtf8 right) : left = right := by
  have read := Utf8Text.text_decodes left
  rw [same, Utf8Text.text_decodes right] at read
  exact (Except.ok.inj read).symm

theorem bytes_append (left right : Text) :
    Text.toUtf8 (left ++ right) = Text.toUtf8 left ++ Text.toUtf8 right := List.flatMap_append

theorem bytes_cons (c : Char) (text : Text) :
    Text.toUtf8 (c :: text) = String.utf8EncodeChar c ++ Text.toUtf8 text := List.flatMap_cons

theorem bytes_length (text : Text) : (Text.toUtf8 text).length = Text.byteLength text := by
  induction text with
  | nil => rfl
  | cons c text ih =>
    rw [bytes_cons, List.length_append, String.length_utf8EncodeChar, ih]
    rfl

/-- A run of bytes spells a keyword just when it is the bytes of the keyword in some case. -/
theorem spells_iff (keyword word : Text) :
    spells (Text.toUtf8 keyword) (Text.toUtf8 word).reverse = true ↔
      word ≠ [] ∧ DiffersInCase word keyword := by
  rw [spells, Bool.and_eq_true, List.reverse_reverse, ← fold_bytes, ← fold_bytes, beq_iff_eq,
    ← same_folded_iff, Text.sameFolded, beq_iff_eq]
  refine and_congr ?_ ⟨bytes_injective, congrArg Text.toUtf8⟩
  cases word with
  | nil => simp [Text.toUtf8]
  | cons c word =>
    have solid : String.utf8EncodeChar c ≠ [] := String.utf8EncodeChar_ne_nil
    simp [bytes_cons, solid]

/-! ## Steps of the search -/

/-- The search of a text for a keyword, with the word that has been read in front of it. -/
def search (keyword word text : Text) : Option Bytes :=
  behindWord? (Text.toUtf8 keyword) (Text.toUtf8 word).reverse (Text.toUtf8 text)

theorem bytes_passed (each : ∀ b ∈ bytes, isWordByte b = true) (rest : Bytes) :
    behindWord? keyword run (bytes ++ rest) =
      behindWord? keyword (bytes.reverse ++ run) rest := by
  induction bytes generalizing run with
  | nil => rfl
  | cons b bytes ih =>
    obtain ⟨here, behind⟩ := List.forall_mem_cons.mp each
    rw [List.cons_append, behindWord?, if_pos here, ih behind, List.reverse_cons,
      List.append_assoc, List.singleton_append]

/-- Word characters are read into the word. -/
theorem word_passed (each : ∀ c ∈ word, isWordChar c = true) (before text : Text) :
    search keyword before (word ++ text) = search keyword (before ++ word) text := by
  have bytes : ∀ b ∈ Text.toUtf8 word, isWordByte b = true := by
    intro b member
    obtain ⟨c, inside, here⟩ := List.mem_flatMap.mp member
    rw [word_byte here, each c inside]
  rw [search, bytes_append, bytes_passed bytes, ← List.reverse_append, ← bytes_append]
  rfl

/-- In a quote, a byte that neither ends nor escapes is passed over. -/
theorem byte_within (other : b ≠ quote) (plain : b = escapeByte → quote ≠ stringQuote)
    (bytes : Bytes) :
    behindQuoted? keyword quote (b :: bytes) = behindQuoted? keyword quote bytes := by
  have unescaped : ¬ (b = escapeByte && quote = stringQuote) = true := by simpa using plain
  cases bytes with
  | nil => rfl
  | cons d bytes => rw [behindQuoted?, if_neg unescaped, if_neg other]

private theorem bytes_within
    (each : ∀ b ∈ bytes, b ≠ quote ∧ (b = escapeByte → quote ≠ stringQuote)) (rest : Bytes) :
    behindQuoted? keyword quote (bytes ++ rest) = behindQuoted? keyword quote rest := by
  induction bytes with
  | nil => rfl
  | cons b bytes ih =>
    obtain ⟨⟨other, plain⟩, behind⟩ := List.forall_mem_cons.mp each
    rw [List.cons_append, byte_within other plain, ih behind]

/-- The search of a text from within a quote. -/
def searchQuoted (keyword : Text) (quote : Char) (text : Text) : Option Bytes :=
  behindQuoted? (Text.toUtf8 keyword) (byteOf quote) (Text.toUtf8 text)

private theorem ascii_cons (ascii : c.toNat < 128) (text : Text) :
    Text.toUtf8 (c :: text) = byteOf c :: Text.toUtf8 text := by
  rw [bytes_cons, ascii_byte ascii, List.singleton_append]

/-- A character that neither ends nor escapes is passed over with all its bytes. -/
theorem char_within (mark : quote = '\'' ∨ quote = '"') (other : c ≠ quote)
    (plain : c = '\\' → quote ≠ '\'') (text : Text) :
    searchQuoted keyword quote (c :: text) = searchQuoted keyword quote text := by
  have ascii : quote.toNat < 128 := by rcases mark with rfl | rfl <;> decide
  rw [searchQuoted, bytes_cons]
  refine bytes_within (fun b member => ⟨?_, ?_⟩) _
  · rintro rfl
    exact other (byte_of_ascii ascii member)
  · rintro rfl string
    have escape : c = '\\' := byte_of_ascii (d := '\\') (by decide) member
    rcases mark with rfl | rfl
    · exact plain escape rfl
    · exact absurd string (by decide)

/-- A backslash in a string takes along the first byte of a character only, but none of
the others means anything there. -/
theorem escaped_within (c : Char) (text : Text) :
    searchQuoted keyword '\'' ('\\' :: c :: text) = searchQuoted keyword '\'' text := by
  rw [searchQuoted, ascii_cons (by decide), bytes_cons]
  obtain ⟨b, bytes, encoded⟩ := List.exists_cons_of_ne_nil (String.utf8EncodeChar_ne_nil (c := c))
  rw [encoded, List.cons_append, behindQuoted?, if_pos (by decide)]
  refine bytes_within (fun d member => ?_) _
  have beyond : 128 ≤ d.toNat := by
    refine byte_beyond (Nat.le_of_not_lt fun ascii => ?_) (encoded ▸ List.mem_cons_of_mem _ member)
    rw [ascii_byte ascii] at encoded
    rw [← (List.cons.inj encoded).2] at member
    cases member
  constructor
  · rintro rfl
    exact absurd beyond (by decide)
  · rintro rfl
    exact absurd beyond (by decide)

private theorem quote_unescaping (mark : quote = '\'' ∨ quote = '"') :
    ¬ (byteOf quote = escapeByte && byteOf quote = stringQuote) = true := by
  rcases mark with rfl | rfl <;> decide

private theorem doubled_within (mark : quote = '\'' ∨ quote = '"') (text : Text) :
    searchQuoted keyword quote (quote :: quote :: text) = searchQuoted keyword quote text := by
  have ascii : quote.toNat < 128 := by rcases mark with rfl | rfl <;> decide
  rw [searchQuoted, ascii_cons ascii, ascii_cons ascii, behindQuoted?,
    if_neg (quote_unescaping mark), if_pos rfl, if_pos rfl]
  rfl

private theorem quote_closes (mark : quote = '\'' ∨ quote = '"') (ends : text.head? ≠ some quote) :
    searchQuoted keyword quote (quote :: text) = search keyword [] text := by
  have ascii : quote.toNat < 128 := by rcases mark with rfl | rfl <;> decide
  rw [searchQuoted, ascii_cons ascii]
  cases text with
  | nil => rfl
  | cons c text =>
    obtain ⟨b, bytes, encoded⟩ :=
      List.exists_cons_of_ne_nil (String.utf8EncodeChar_ne_nil (c := c))
    have other : b ≠ byteOf quote := by
      rintro rfl
      have same := byte_of_ascii ascii (encoded ▸ List.mem_cons_self)
      exact ends (congrArg some same)
    rw [search, bytes_cons, encoded, List.cons_append, behindQuoted?,
      if_neg (quote_unescaping mark), if_pos rfl, if_neg other]
    rfl

private theorem string_passed (within : StringInside inside) (ends : text.head? ≠ some '\'') :
    searchQuoted keyword '\'' (inside ++ '\'' :: text) = search keyword [] text := by
  induction within with
  | nil => exact quote_closes (by decide) ends
  | escaped _ ih => rw [List.cons_append, List.cons_append, escaped_within, ih]
  | doubled _ ih =>
    rw [List.cons_append, List.cons_append, doubled_within (by decide), ih]
  | plain unescaped unquoted _ ih =>
    rw [List.cons_append, char_within (by decide) unquoted fun same => absurd same unescaped, ih]

private theorem identifier_passed (within : IdentifierInside inside)
    (ends : text.head? ≠ some '"') :
    searchQuoted keyword '"' (inside ++ '"' :: text) = search keyword [] text := by
  induction within with
  | nil => exact quote_closes (by decide) ends
  | doubled _ ih =>
    rw [List.cons_append, List.cons_append, doubled_within (by decide), ih]
  | plain unquoted _ ih =>
    rw [List.cons_append, char_within (by decide) unquoted fun _ => by decide, ih]

private theorem quote_byte_iff (ascii : c.toNat < 128) :
    (byteOf c = stringQuote || byteOf c = identifierQuote) = true ↔ c = '\'' ∨ c = '"' :=
  ascii_all (p := fun c => (byteOf c = stringQuote || byteOf c = identifierQuote) = true ↔
    c = '\'' ∨ c = '"') (by decide) ascii

/-- A character that is no part of a word ends the word in front of it, and the search goes
on behind it, or in the quote it opens, unless that word was the keyword. -/
theorem char_met (outside : isWordChar c = false) (text : Text) :
    search keyword word (c :: text) =
      if spells (Text.toUtf8 keyword) (Text.toUtf8 word).reverse then some (Text.toUtf8 (c :: text))
      else if c = '\'' ∨ c = '"' then searchQuoted keyword c text
      else search keyword [] text := by
  have ascii : c.toNat < 128 := by
    by_contra beyond
    simp [isWordChar, Nat.le_of_not_lt beyond] at outside
  have other : ¬ isWordByte (byteOf c) = true := by
    rw [word_byte (c := c) (by rw [ascii_byte ascii]; exact List.mem_singleton_self _), outside]
    decide
  rw [search, ascii_cons ascii, behindWord?, if_neg other]
  simp only [quote_byte_iff ascii]
  rfl

/-- Whether a lexeme is a character of a word. -/
def inWord : Lexeme → Bool
  | .char c => isWordChar c
  | _ => false

/-- A lexeme that is no part of a word ends the word in front of it, and the search goes on
behind it unless that word was the keyword. -/
theorem lexeme_met (settled : Settled lexeme) (formed : Formed lexeme)
    (outside : inWord lexeme = false) (ends : EndsBefore lexeme text.head?) :
    search keyword word (lexeme.source ++ text) =
      if spells (Text.toUtf8 keyword) (Text.toUtf8 word).reverse then
        some (Text.toUtf8 (lexeme.source ++ text))
      else search keyword [] text := by
  cases settled with
  | string =>
    obtain ⟨inside, within, rfl⟩ := formed
    have opens : '\'' = '\'' ∨ '\'' = '"' := .inl rfl
    rw [source, List.cons_append, char_met (by decide), if_pos opens, List.append_assoc,
      List.singleton_append, string_passed within ends]
  | identifier =>
    obtain ⟨inside, within, rfl⟩ := formed
    have opens : '"' = '\'' ∨ '"' = '"' := .inr rfl
    rw [source, List.cons_append, char_met (by decide), if_pos opens, List.append_assoc,
      List.singleton_append, identifier_passed within ends]
  | @char c =>
    have plain : ¬ (c = '\'' ∨ c = '"') := not_or.mpr formed
    rw [source, List.singleton_append, char_met outside, if_neg plain]

/-! ## Words -/

/-- A word among lexemes: a run of word characters that is not empty and that no character
of a word stands before or behind. -/
structure WordAt (lexemes front : List Lexeme) (word : Text) (behind : List Lexeme) : Prop where
  parts : lexemes = front ++ (word.map .char ++ behind)
  some : word ≠ []
  each : ∀ c ∈ word, isWordChar c = true
  starts : ∀ lexeme ∈ front.getLast?, inWord lexeme = false
  stops : ∀ lexeme ∈ behind.head?, inWord lexeme = false

/-- No word among the lexemes is the keyword, in any case. -/
def Wordless (keyword : Text) (lexemes : List Lexeme) : Prop :=
  ∀ front word behind, WordAt lexemes front word behind → ¬ DiffersInCase word keyword

/-- Lexemes behind which a word may begin. -/
def EndsWords (lexemes : List Lexeme) : Prop :=
  ∀ lexeme ∈ lexemes.getLast?, inWord lexeme = false

/-- A word behind a lexeme that is no part of one is a word behind anything that ends in it. -/
theorem word_behind (ends : EndsWords before) (here : WordAt lexemes front word behind) :
    WordAt (before ++ lexemes) (before ++ front) word behind where
  parts := by rw [here.parts, List.append_assoc]
  some := here.some
  each := here.each
  starts := by
    intro lexeme last
    rw [List.getLast?_append] at last
    cases final : front.getLast? with
    | none =>
      rw [final, Option.none_or] at last
      exact ends lexeme last
    | some other =>
      rw [final, Option.some_or] at last
      exact here.starts lexeme (final.trans last)
  stops := here.stops

private theorem wordless_behind (ends : EndsWords before)
    (wordless : Wordless keyword (before ++ lexemes)) : Wordless keyword lexemes :=
  fun front word behind here => wordless (before ++ front) word behind (word_behind ends here)

private theorem ends_words_behind (ends : EndsWords (before ++ lexemes)) : EndsWords lexemes := by
  intro lexeme last
  apply ends lexeme
  rw [List.getLast?_append, last, Option.some_or]
  rfl

/-- Lexemes without the keyword are passed over, up to a place where a word may begin. The
word in front of them that has been read so far is taken along. -/
theorem wordless_passed {text : Text} (settled : ∀ lexeme ∈ lexemes, Settled lexeme)
    (joined : Joined text.head? lexemes) (each : ∀ c ∈ word, isWordChar c = true)
    (ends : EndsWords (word.map .char ++ lexemes))
    (wordless : Wordless keyword (word.map .char ++ lexemes)) :
    search keyword word (sourceOf lexemes ++ text) = search keyword [] text := by
  induction lexemes generalizing word with
  | nil =>
    rcases List.eq_nil_or_concat word with rfl | ⟨init, c, rfl⟩
    · rfl
    · rw [List.concat_eq_append] at each ends
      have inside : isWordChar c = true := each c (by simp)
      have outside : isWordChar c = false := ends (.char c) (by simp)
      rw [inside] at outside
      cases outside
  | cons lexeme lexemes ih =>
    obtain ⟨here, others⟩ := List.forall_mem_cons.mp settled
    obtain ⟨formed, after, behind⟩ := joined
    rw [← List.head?_append] at after
    rw [source_cons, List.append_assoc]
    cases part : inWord lexeme with
    | true =>
      cases lexeme with
      | char c =>
        have letter : ∀ d ∈ [c], isWordChar d = true := List.forall_mem_singleton.mpr part
        have longer : ∀ d ∈ word ++ [c], isWordChar d = true :=
          List.forall_mem_append.mpr ⟨each, letter⟩
        have moved : (word ++ [c]).map Lexeme.char ++ lexemes =
            word.map .char ++ .char c :: lexemes := by simp
        rw [source, word_passed letter]
        exact ih others behind longer (moved ▸ ends) (moved ▸ wordless)
      | _ => cases part
    | false =>
      have unspelled : ¬ spells (Text.toUtf8 keyword) (Text.toUtf8 word).reverse = true := by
        rw [spells_iff]
        rintro ⟨some, alike⟩
        refine wordless [] word (lexeme :: lexemes) ⟨rfl, some, each, by simp, ?_⟩ alike
        rintro next ⟨⟩
        exact part
      have split : word.map Lexeme.char ++ lexeme :: lexemes =
          (word.map .char ++ [lexeme]) ++ lexemes := by simp
      have apart : EndsWords (word.map Lexeme.char ++ [lexeme]) := by
        intro last final
        rw [List.getLast?_concat] at final
        cases final
        exact part
      rw [split] at ends wordless
      rw [lexeme_met here formed part after, if_neg unspelled]
      exact ih others behind (by simp) (ends_words_behind ends) (wordless_behind apart wordless)

section Found
variable {lexemes front behind : List Lexeme} {word keyword : Text}
  (settled : ∀ lexeme ∈ lexemes, Settled lexeme) (joined : Joined none lexemes)
  (here : WordAt lexemes front word behind) (alike : DiffersInCase word keyword)
  (first : Wordless keyword front)
include settled joined here alike first

/-- The search stops behind the first word that is the keyword. -/
theorem word_found :
    search keyword [] (sourceOf lexemes) = some (Text.toUtf8 (sourceOf behind)) := by
  have spelled : spells (Text.toUtf8 keyword) (Text.toUtf8 word).reverse = true :=
    (spells_iff keyword word).mpr ⟨here.some, alike⟩
  rw [here.parts] at settled joined ⊢
  obtain ⟨before, after⟩ := joined_append.mp joined
  rw [Option.or_none, source_append, source_chars] at before
  have passed : search keyword [] (sourceOf front ++ (word ++ sourceOf behind)) =
      search keyword [] (word ++ sourceOf behind) :=
    wordless_passed (fun lexeme member => settled lexeme (List.mem_append_left _ member)) before
      (by simp) here.starts first
  rw [source_append, source_append, source_chars, passed, word_passed here.each, List.nil_append]
  cases behind with
  | nil => exact if_pos spelled
  | cons lexeme behind =>
    obtain ⟨formed, ends, -⟩ := (joined_append.mp after).2
    rw [Option.or_none] at ends
    rw [source_cons, lexeme_met (settled lexeme (by simp)) formed (here.stops lexeme rfl) ends,
      if_pos spelled]

theorem keyword_found :
    findKeyword keyword (sourceOf lexemes) = some (Text.byteLength (sourceOf front ++ word)) ∧
      Text.fromByte? (Text.byteLength (sourceOf front ++ word)) (sourceOf lexemes) =
        some (sourceOf behind) := by
  have found : behindWord? (Text.toUtf8 keyword) [] (Text.toUtf8 (sourceOf lexemes)) =
      some (Text.toUtf8 (sourceOf behind)) := word_found settled joined here alike first
  have parts : sourceOf lexemes = (sourceOf front ++ word) ++ sourceOf behind := by
    rw [here.parts, source_append, source_append, source_chars, List.append_assoc]
  refine ⟨?_, by rw [parts, Text.fromByte?_behind]⟩
  rw [findKeyword, found, Option.map_some, bytes_length, bytes_length, parts,
    Text.byteLength_append, Nat.add_sub_cancel]

end Found

/-! ## Texts without a keyword -/

/-- Lexemes end in a word, which may be empty. -/
theorem last_word (lexemes : List Lexeme) :
    ∃ (front : List Lexeme) (word : Text), lexemes = front ++ word.map .char ∧
      EndsWords front ∧ ∀ c ∈ word, isWordChar c = true := by
  induction lexemes using List.reverseRecOn with
  | nil => exact ⟨[], [], rfl, by simp [EndsWords], by simp⟩
  | append_singleton lexemes lexeme ih =>
    cases part : inWord lexeme with
    | false =>
      refine ⟨lexemes ++ [lexeme], [], (List.append_nil _).symm, ?_, by simp⟩
      intro last final
      rw [List.getLast?_concat] at final
      cases final
      exact part
    | true =>
      obtain ⟨front, word, rfl, ends, each⟩ := ih
      cases lexeme with
      | char c =>
        exact ⟨front, word ++ [c], by simp, ends,
          List.forall_mem_append.mpr ⟨each, List.forall_mem_singleton.mpr part⟩⟩
      | _ => cases part

/-- A word of lexemes that no word ends in stays a word when more stands behind them. -/
theorem word_before (ends : EndsWords lexemes) (here : WordAt lexemes front word behind) :
    WordAt (lexemes ++ after) front word (behind ++ after) where
  parts := by simp [here.parts]
  some := here.some
  each := here.each
  starts := here.starts
  stops := by
    cases behind with
    | cons lexeme behind => exact here.stops
    | nil =>
      obtain ⟨init, c, rfl⟩ := (List.eq_nil_or_concat word).resolve_left here.some
      have part : inWord (.char c) = true := here.each c (by simp)
      have apart := ends (.char c) (by simp [here.parts])
      rw [part] at apart
      cases apart

private theorem wordless_before (ends : EndsWords before)
    (wordless : Wordless keyword (before ++ lexemes)) : Wordless keyword before :=
  fun front word behind here =>
    wordless front word (behind ++ lexemes) (word_before ends here)

/-- The search finds nothing where no word is the keyword. -/
theorem nothing_found (settled : ∀ lexeme ∈ lexemes, Settled lexeme)
    (joined : Joined none lexemes) (wordless : Wordless keyword lexemes) :
    findKeyword keyword (sourceOf lexemes) = none := by
  obtain ⟨front, word, rfl, ends, each⟩ := last_word lexemes
  have before := (joined_append.mp joined).1
  rw [source_chars, Option.or_none] at before
  have passed : search keyword [] (sourceOf front ++ word) = search keyword [] word :=
    wordless_passed (fun lexeme member => settled lexeme (List.mem_append_left _ member)) before
      (by simp) ends (wordless_before ends wordless)
  have read : search keyword [] (word ++ []) = search keyword word [] := word_passed each [] []
  rw [List.append_nil] at read
  have unspelled : ¬ spells (Text.toUtf8 keyword) (Text.toUtf8 word).reverse = true := by
    rw [spells_iff]
    rintro ⟨some, alike⟩
    exact wordless front word [] ⟨by simp, some, each, ends, by simp⟩ alike
  have found : behindWord? (Text.toUtf8 keyword) [] (Text.toUtf8 (sourceOf front ++ word)) =
      none := passed.trans (read.trans (if_neg unspelled))
  rw [findKeyword, source_append, source_chars, found, Option.map_none]

/-- No word goes across a lexeme that is no part of one. -/
theorem wordless_apart (outside : inWord lexeme = false) (before : Wordless keyword left)
    (after : Wordless keyword right) : Wordless keyword (left ++ lexeme :: right) := by
  intro front word behind here alike
  have apart : lexeme ∉ word.map Lexeme.char := by
    intro member
    obtain ⟨c, inside, rfl⟩ := List.mem_map.mp member
    cases outside.symm.trans (here.each c inside)
  rcases List.append_eq_append_iff.mp here.parts with ⟨gap, rfl, rest⟩ | ⟨gap, rfl, rest⟩
  · cases gap with
    | nil =>
      -- the word would begin with the lexeme
      obtain ⟨c, others, rfl⟩ := List.exists_cons_of_ne_nil here.some
      rw [List.nil_append, List.map_cons, List.cons_append] at rest
      exact apart ((List.cons.inj rest).1 ▸ List.mem_cons_self)
    | cons other gap =>
      obtain ⟨rfl, rfl⟩ := List.cons.inj rest
      refine after gap word behind
        ⟨rfl, here.some, here.each, fun last final => ?_, here.stops⟩ alike
      apply here.starts
      rw [List.getLast?_append, List.getLast?_cons, final]
      rfl
  · rcases List.append_eq_append_iff.mp rest with ⟨middle, same, stop⟩ | ⟨middle, same, stop⟩
    · subst same stop
      refine before front word middle
        ⟨rfl, here.some, here.each, here.starts, fun next first => ?_⟩ alike
      apply here.stops
      rw [List.head?_append, first]
      rfl
    · cases middle with
      | nil =>
        rw [List.append_nil] at same
        exact before front word [] ⟨by rw [same, List.append_nil], here.some, here.each,
          here.starts, by simp⟩ alike
      | cons other middle =>
        obtain ⟨rfl, -⟩ := List.cons.inj stop
        exact apart (same ▸ List.mem_append_right _ List.mem_cons_self)

/-- Where its first letter is missing, so is the keyword. -/
theorem wordless_without (starts : keyword.head? = some initial)
    (missing : ∀ c, .char c ∈ lexemes → c.toLower ≠ initial.toLower) :
    Wordless keyword lexemes := by
  intro front word behind here alike
  cases alike with
  | nil => cases starts
  | cons same _ =>
    cases starts
    exact missing _ (by rw [here.parts]; simp) (same_letter_lower same)

end SqlWire.KeywordSearch
