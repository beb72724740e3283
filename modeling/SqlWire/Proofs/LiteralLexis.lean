import SqlWire.Proofs.Cleaning
import SqlWire.Proofs.Rendering

/-! How the lexis cuts the literals of bound values. They are closed, they have no
comments, markers or separators in them, and all but the quoted ones may stand
before anything. -/
namespace SqlWire.LiteralLexis
open Lexeme Lexis Cleaning Rendering NumeralText QuotedText

/-- A lexeme that is closed and is neither a comment, nor a marker, nor a separator. -/
structure Inert (lexeme : Lexeme) : Prop where
  settled : Settled lexeme
  unmarked : lexeme ≠ .char '?'
  within : lexeme ≠ separator

/-- Lexemes of a text that are inert and may stand before anything, a quoted text
excepted, which may not stand before a quote. -/
structure Lexed (quoted : Prop) (text : Text) (lexemes : List Lexeme) : Prop where
  source : sourceOf lexemes = text
  inert : ∀ lexeme ∈ lexemes, Inert lexeme
  joined : ∀ next, (quoted → next ≠ some '\'') → Joined next lexemes

private theorem inert_char (unmarked : c ≠ '?') (within : c ≠ ';') : Inert (.char c) :=
  ⟨.char, by simpa using unmarked, by simpa [separator] using within⟩

/-- Characters that open nothing are lexemes of their own. -/
private theorem chars_lexed (plain : ∀ c ∈ text, c ∉ ['\'', '"', '-', '/', '?', ';']) :
    Lexed False text (text.map .char) := by
  refine ⟨source_chars text, fun lexeme member => ?_, fun next _ => ?_⟩
  · obtain ⟨c, inside, rfl⟩ := List.mem_map.mp member
    have here := plain c inside
    simp only [List.mem_cons, List.not_mem_nil, or_false, not_or] at here
    obtain ⟨-, -, -, -, marker, separates⟩ := here
    exact inert_char marker separates
  · exact plain_joined (fun c inside opens => plain c inside (List.mem_append_left _ opens)) next

private theorem number_plain (body : NumberBody text) :
    ∀ c ∈ text, c ∉ ['\'', '"', '-', '/', '?', ';'] := by
  intro c member listed
  rcases body.chars c member with digit | rfl
  · exact digit_not_mem digit _ rfl listed
  · revert listed
    decide

private theorem negative_lexed (body : NumberBody text) :
    Lexed False ('-' :: text) (.char '-' :: text.map .char) := by
  obtain ⟨source, inert, joined⟩ := chars_lexed (number_plain body)
  refine ⟨?_, ?_, fun next free => ⟨by simp [Formed], ?_, joined next free⟩⟩
  · simpa [sourceOf, Lexeme.source] using source
  · rw [List.forall_mem_cons]
    exact ⟨inert_char (by decide) (by decide), inert⟩
  · obtain ⟨c, rest, rfl⟩ := List.exists_cons_of_ne_nil body.some
    have digit := body.starts c rfl
    rw [source]
    simp [EndsBefore, digit_ne digit (by decide : '-'.isDigit = false)]

private theorem quoted_lexed (text : Text) :
    Lexed True (Text.quote text) [.string (Text.quoteBody text ++ ['\'']) true] := by
  refine ⟨by simp [sourceOf, Lexeme.source, Text.quote], ?_, fun next free => ?_⟩
  · simp only [List.mem_singleton, forall_eq]
    exact ⟨.string, by simp, by simp [separator]⟩
  · refine ⟨⟨_, quote_body_inside text, rfl⟩, ?_, trivial⟩
    simpa [sourceOf, EndsBefore] using free trivial

/-- Items with commas between them, before the bracket that closes the list. -/
private theorem items_lexed (each : ∀ item ∈ items, ∃ lexemes, Lexed True item lexemes) :
    ∃ lexemes, sourceOf lexemes = Text.joinWith [','] items ∧
      (∀ lexeme ∈ lexemes, Inert lexeme) ∧ Joined (some ']') lexemes := by
  fun_induction Text.joinWith [','] items with
  | case1 => exact ⟨[], rfl, by simp, trivial⟩
  | case2 last =>
    obtain ⟨lexemes, source, inert, joined⟩ := each last List.mem_cons_self
    exact ⟨lexemes, source, inert, joined _ (by simp)⟩
  | case3 first next others ih =>
    obtain ⟨lexemes, source, inert, joined⟩ := each first List.mem_cons_self
    obtain ⟨behind, sources, inerts, joins⟩ :=
      ih fun item member => each item (List.mem_cons_of_mem _ member)
    refine ⟨lexemes ++ .char ',' :: behind, ?_, ?_, ?_⟩
    · rw [source_append, source, List.append_assoc, ← sources]
      simp [sourceOf, Lexeme.source]
    · intro lexeme member
      rcases List.mem_append.mp member with here | there
      · exact inert lexeme here
      · rcases List.mem_cons.mp there with rfl | there
        · exact inert_char (by decide) (by decide)
        · exact inerts lexeme there
    · rw [joined_append]
      have front := joined (some ',') (by simp)
      exact ⟨front, by simp [Formed], by simp [EndsBefore], joins⟩

private theorem lexed_weaken {less more : Prop} (lexed : Lexed less text lexemes)
    (implied : less → more) : Lexed more text lexemes :=
  ⟨lexed.source, lexed.inert, fun next free => lexed.joined next fun holds => free (implied holds)⟩

private theorem scalar_lexed (written : Written value text)
    (scalar : ∀ items, value ≠ .array items) :
    ∃ lexemes, Lexed (IsQuoted value) text lexemes := by
  cases written with
  | null => exact ⟨_, lexed_weaken (chars_lexed (by simp)) False.elim⟩
  | number unquoted unsigned body =>
    exact ⟨_, lexed_weaken (chars_lexed (number_plain body)) False.elim⟩
  | negative unquoted signed body => exact ⟨_, lexed_weaken (negative_lexed body) False.elim⟩
  | quoted quotes unsigned => exact ⟨_, lexed_weaken (quoted_lexed _) fun _ => quotes⟩
  | array => exact absurd rfl (scalar _)

private theorem array_lexed
    (each : ∀ item ∈ items, ∃ lexemes, Lexed (IsQuoted item) (literalOf item) lexemes) :
    ∃ lexemes, Lexed (IsQuoted (.array items)) (literalOf (.array items)) lexemes := by
  have weaker : ∀ text ∈ items.map literalOf, ∃ lexemes, Lexed True text lexemes := by
    intro text member
    obtain ⟨item, here, rfl⟩ := List.mem_map.mp member
    obtain ⟨lexemes, lexed⟩ := each item here
    exact ⟨lexemes, lexed_weaken lexed fun _ => trivial⟩
  obtain ⟨lexemes, source, inert, joined⟩ := items_lexed weaker
  refine ⟨.char '[' :: (lexemes ++ [.char ']']), ?_, ?_, fun next free => ?_⟩
  · rw [literalOf, literals_eq_map, ← source]
    simp [sourceOf, Lexeme.source]
  · rw [List.forall_mem_cons]
    refine ⟨inert_char (by decide) (by decide), fun lexeme member => ?_⟩
    rcases List.mem_append.mp member with inside | last
    · exact inert lexeme inside
    · rw [List.mem_singleton.mp last]
      exact inert_char (by decide) (by decide)
  · refine ⟨by simp [Formed], by simp [EndsBefore], ?_⟩
    rw [joined_append]
    exact ⟨joined, by simp [Formed], by simp [EndsBefore], trivial⟩

/-- Every literal has lexemes, and only the quoted ones mind what stands behind. -/
theorem literal_lexed (plain : NoFloat value) :
    ∃ lexemes, Lexed (IsQuoted value) (literalOf value) lexemes := by
  induction plain with
  | null => exact scalar_lexed (literal_written .null) (by simp)
  | bool => exact scalar_lexed (literal_written .bool) (by simp)
  | int => exact scalar_lexed (literal_written .int) (by simp)
  | decimal => exact scalar_lexed (literal_written .decimal) (by simp)
  | text => exact scalar_lexed (literal_written .text) (by simp)
  | date => exact scalar_lexed (literal_written .date) (by simp)
  | timestamp => exact scalar_lexed (literal_written .timestamp) (by simp)
  | array each ih => exact array_lexed ih

private theorem lexed_reads {quoted : Prop} (lexed : Lexed quoted text lexemes)
    (ends : quoted → rest.head? ≠ some '\'') : ofText (text ++ rest) = lexemes ++ ofText rest := by
  rw [← lexed.source]
  exact joined_reads (lexed.joined _ ends)

private theorem lexed_lexemes {quoted : Prop} (lexed : Lexed quoted text lexemes) :
    ofText text = lexemes := by
  have alone : ofText (text ++ []) = lexemes ++ ofText [] := lexed_reads lexed (by simp)
  rwa [ofText, List.append_nil, List.append_nil] at alone

/-- The lexemes that are read from a literal are inert. -/
theorem literal_inert (plain : NoFloat value) :
    ∀ lexeme ∈ ofText (literalOf value), Inert lexeme := by
  obtain ⟨lexemes, lexed⟩ := literal_lexed plain
  rw [lexed_lexemes lexed]
  exact lexed.inert

/-- A literal is read as a whole, unless it is quoted and a quote stands behind it. -/
theorem literal_reads (plain : NoFloat value) (ends : IsQuoted value → rest.head? ≠ some '\'') :
    ofText (literalOf value ++ rest) = ofText (literalOf value) ++ ofText rest := by
  obtain ⟨lexemes, lexed⟩ := literal_lexed plain
  rw [lexed_lexemes lexed]
  exact lexed_reads lexed ends

/-- A quoted literal is a single string. -/
theorem quoted_string (plain : NoFloat value) (quotes : IsQuoted value) :
    ∃ inside, StringInside inside ∧ literalOf value = '\'' :: inside ++ ['\''] ∧
      ofText (literalOf value) = [.string (inside ++ ['\'']) true] := by
  have text : ∃ text, literalOf value = Text.quote text := by
    have written := literal_written plain
    generalize literalOf value = text at written
    cases written with
    | quoted => exact ⟨_, rfl⟩
    | null => exact absurd quotes id
    | number unquoted => exact absurd quotes unquoted
    | negative unquoted => exact absurd quotes unquoted
    | array => exact absurd quotes id
  obtain ⟨text, same⟩ := text
  exact ⟨_, quote_body_inside text, same, same ▸ lexed_lexemes (quoted_lexed text)⟩

end SqlWire.LiteralLexis
