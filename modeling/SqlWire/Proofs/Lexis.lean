import SqlWire.Script.Segment

/-! The lexis of SQL text said without a reader: which texts are strings,
identifiers and comments, and what may stand behind each of them. Every text has
exactly one such cut, it is the one that is read, and segments are the runs of it
between separators. -/
namespace SqlWire.Lexis
open Lexeme

/-- What stands between the quotes of a string: escapes, doubled quotes, and
characters that are neither backslash nor quote. -/
inductive StringInside : Text → Prop
  | nil : StringInside []
  | escaped : StringInside rest → StringInside ('\\' :: c :: rest)
  | doubled : StringInside rest → StringInside ('\'' :: '\'' :: rest)
  | plain : c ≠ '\\' → c ≠ '\'' → StringInside rest → StringInside (c :: rest)

/-- What stands between the quotes of an identifier. A backslash is a character
like any other there. -/
inductive IdentifierInside : Text → Prop
  | nil : IdentifierInside []
  | doubled : IdentifierInside rest → IdentifierInside ('"' :: '"' :: rest)
  | plain : c ≠ '"' → IdentifierInside rest → IdentifierInside (c :: rest)

/-- The end of a block comment. -/
def closing : Text := ['*', '/']

/-- Which bodies a lexeme can have. An open string may end in a backslash that has
nothing to escape. -/
def Formed : Lexeme → Prop
  | .string body true => ∃ inside, StringInside inside ∧ body = inside ++ ['\'']
  | .string body false =>
    StringInside body ∨ ∃ inside, StringInside inside ∧ body = inside ++ ['\\']
  | .identifier body true => ∃ inside, IdentifierInside inside ∧ body = inside ++ ['"']
  | .identifier body false => IdentifierInside body
  | .lineComment body => '\n' ∉ body
  | .blockComment body =>
    (∃ inside, body = inside ++ closing ∧ ¬ closing <:+: inside ++ ['*']) ∨ ¬ closing <:+: body
  | .char c => c ≠ '\'' ∧ c ≠ '"'

/-- Which character may stand behind a lexeme, none at the end of the text. -/
def EndsBefore : Lexeme → Option Char → Prop
  | .string _ true, next => next ≠ some '\''
  | .identifier _ true, next => next ≠ some '"'
  | .string _ false, next | .identifier _ false, next => next = none
  | .lineComment _, next => next = none ∨ next = some '\n'
  | .blockComment body, next => closing <:+ body ∨ next = none
  | .char c, next => (c = '-' → next ≠ some '-') ∧ (c = '/' → next ≠ some '*')

/-- A text cut from left to right into lexemes. -/
inductive Cut : Text → List Lexeme → Prop
  | nil : Cut [] []
  | cons : Formed lexeme → EndsBefore lexeme rest.head? → Cut rest lexemes →
      Cut (lexeme.source ++ rest) (lexeme :: lexemes)

theorem cut_source (cut : Cut text lexemes) : sourceOf lexemes = text := by
  induction cut with
  | nil => rfl
  | cons formed ends cut ih => simpa [sourceOf] using ih

section Reading
variable {rest body inside : Text}

private theorem string_reads (within : StringInside inside) (ends : rest.head? ≠ some '\'') :
    inString (inside ++ '\'' :: rest) = ⟨inside ++ ['\''], true, ofText rest⟩ := by
  induction within with
  | nil =>
    cases rest with
    | nil => simp [inString, ofText]
    | cons d rest =>
      have other : d ≠ '\'' := by simpa using ends
      simp [inString, other]
  | escaped within ih => simp [inString, ih, Pending.extend]
  | doubled within ih => simp [inString, ih, Pending.extend]
  | @plain c inside unescaped unquoted within ih =>
    cases inside <;>
      simp_all [inString, Pending.extend]

private theorem open_string_reads (within : StringInside body) :
    inString body = ⟨body, false, []⟩ ∧
      inString (body ++ ['\\']) = ⟨body ++ ['\\'], false, []⟩ := by
  induction within with
  | nil => simp [inString]
  | escaped within ih => simp [inString, ih, Pending.extend]
  | doubled within ih => simp [inString, ih, Pending.extend]
  | @plain c inside unescaped unquoted within ih =>
    cases inside <;>
      simp_all [inString, Pending.extend]

private theorem identifier_reads (within : IdentifierInside inside)
    (ends : rest.head? ≠ some '"') :
    inIdentifier (inside ++ '"' :: rest) = ⟨inside ++ ['"'], true, ofText rest⟩ := by
  induction within with
  | nil =>
    cases rest with
    | nil => simp [inIdentifier, ofText]
    | cons d rest =>
      have other : d ≠ '"' := by simpa using ends
      simp [inIdentifier, other]
  | doubled within ih => simp [inIdentifier, ih, Pending.extend]
  | @plain c inside unquoted within ih =>
    cases inside <;>
      simp_all [inIdentifier, Pending.extend]

private theorem open_identifier_reads (within : IdentifierInside body) :
    inIdentifier body = ⟨body, false, []⟩ := by
  induction within with
  | nil => simp [inIdentifier]
  | doubled within ih => simp [inIdentifier, ih, Pending.extend]
  | @plain c inside unquoted within ih =>
    cases inside <;>
      simp_all [inIdentifier, Pending.extend]

private theorem line_comment_reads (formed : '\n' ∉ body)
    (ends : rest.head? = none ∨ rest.head? = some '\n') :
    inLineComment (body ++ rest) = ⟨body, true, ofText rest⟩ := by
  induction body with
  | nil =>
    cases rest with
    | nil => simp [inLineComment, ofText]
    | cons c rest =>
      have newline : c = '\n' := by simpa using ends
      subst newline
      cases rest <;> simp [inLineComment, ofText]
  | cons c body ih =>
    have other : c ≠ '\n' := by
      rintro rfl
      exact formed (by simp)
    have inner := ih (fun member => formed (by simp [member]))
    simp [inLineComment, other, inner, Pending.extend]

private theorem block_comment_reads (first : ¬ closing <:+: inside ++ ['*']) :
    inBlockComment (inside ++ '*' :: '/' :: rest) = ⟨inside ++ closing, true, ofText rest⟩ := by
  induction inside with
  | nil => simp [inBlockComment, closing]
  | cons c inside ih =>
    have inner := ih (fun found => first (found.trans (List.suffix_cons ..).isInfix))
    cases inside with
    | nil => simpa [inBlockComment, Pending.extend] using inner
    | cons d inside =>
      have other : ¬ (c = '*' ∧ d = '/') := by
        rintro ⟨rfl, rfl⟩
        exact first ⟨[], inside ++ ['*'], rfl⟩
      simp_all [inBlockComment, Pending.extend]

private theorem open_block_comment_reads (never : ¬ closing <:+: body) :
    inBlockComment body = ⟨body, true, []⟩ := by
  induction body with
  | nil => simp [inBlockComment]
  | cons c body ih =>
    have inner := ih (fun found => never (found.trans (List.suffix_cons ..).isInfix))
    cases body with
    | nil => simp [inBlockComment]
    | cons d body =>
      have other : ¬ (c = '*' ∧ d = '/') := by
        rintro ⟨rfl, rfl⟩
        exact never ⟨[], body, rfl⟩
      simp [inBlockComment, other, inner, Pending.extend]

theorem rest_empty (ends : rest.head? = none) : rest = [] :=
  List.head?_eq_none_iff.mp ends

private theorem block_source_reads (formed : Formed (.blockComment body))
    (ends : EndsBefore (.blockComment body) rest.head?) :
    inBlockComment (body ++ rest) = ⟨body, true, ofText rest⟩ := by
  rcases formed with ⟨inside, rfl, first⟩ | never
  · have reads : inBlockComment (inside ++ '*' :: '/' :: rest) = _ := block_comment_reads first
    simpa [closing] using reads
  · rcases ends with closed | last
    · exact absurd closed.isInfix never
    · rw [rest_empty last, List.append_nil, ofText]
      exact open_block_comment_reads never

theorem quote_opens :
    ofText ('\'' :: rest) =
      .string (inString rest).body (inString rest).closed :: (inString rest).next := by
  rw [ofText.eq_def]
  simp

private theorem double_quote_opens :
    ofText ('"' :: rest) =
      .identifier (inIdentifier rest).body (inIdentifier rest).closed ::
        (inIdentifier rest).next := by
  rw [ofText.eq_def]
  simp

private theorem dashes_open :
    ofText ('-' :: '-' :: rest) =
      .lineComment (inLineComment rest).body :: (inLineComment rest).next := by
  simp [ofText]

private theorem slash_star_opens :
    ofText ('/' :: '*' :: rest) =
      .blockComment (inBlockComment rest).body :: (inBlockComment rest).next := by
  simp [ofText]

/-- A well-formed lexeme in front of what may stand behind it is read as a
whole. -/
theorem source_reads (formed : Formed lexeme) (ends : EndsBefore lexeme rest.head?) :
    ofText (lexeme.source ++ rest) = lexeme :: ofText rest := by
  cases lexeme with
  | string body closed =>
    cases closed with
    | true =>
      obtain ⟨inside, within, rfl⟩ := formed
      simp only [source, List.cons_append, List.append_assoc, List.nil_append]
      rw [quote_opens, string_reads within ends]
    | false =>
      have reads : inString body = ⟨body, false, []⟩ := by
        rcases formed with within | ⟨inside, within, rfl⟩
        · exact (open_string_reads within).1
        · exact (open_string_reads within).2
      rw [rest_empty ends, List.append_nil, source, quote_opens, reads, ofText]
  | identifier body closed =>
    cases closed with
    | true =>
      obtain ⟨inside, within, rfl⟩ := formed
      simp only [source, List.cons_append, List.append_assoc, List.nil_append]
      rw [double_quote_opens, identifier_reads within ends]
    | false =>
      rw [rest_empty ends, List.append_nil, source, double_quote_opens,
        open_identifier_reads formed, ofText]
  | lineComment body =>
    simp only [source, List.cons_append]
    rw [dashes_open, line_comment_reads formed ends]
  | blockComment body =>
    simp only [source, List.cons_append]
    rw [slash_star_opens, block_source_reads formed ends]
  | char c =>
    obtain ⟨unquoted, undoubled⟩ := formed
    cases rest with
    | nil => simp [source, ofText, unquoted, undoubled]
    | cons d rest =>
      obtain ⟨dash, slash⟩ := ends
      have noLine : ¬ (c = '-' ∧ d = '-') := by
        rintro ⟨rfl, rfl⟩
        exact dash rfl rfl
      have noBlock : ¬ (c = '/' ∧ d = '*') := by
        rintro ⟨rfl, rfl⟩
        exact slash rfl rfl
      simp [source, ofText, unquoted, undoubled, noLine, noBlock]

end Reading

/-- The lexemes read from a text are the only cut of it. -/
theorem cut_reads (cut : Cut text lexemes) : ofText text = lexemes := by
  induction cut with
  | nil => simp [ofText]
  | cons formed ends cut ih => rw [source_reads formed ends, ih]

/-- The text behind an opening mark begins with the body of a lexeme. -/
def Continues (lexeme : Text → Lexeme) (text : Text) : Prop :=
  ∃ body rest, text = body ++ rest ∧ Formed (lexeme body) ∧ EndsBefore (lexeme body) rest.head?

private theorem string_inside_append (front : StringInside head) (back : StringInside tail) :
    StringInside (head ++ tail) := by
  induction front with
  | nil => exact back
  | escaped _ ih => exact .escaped ih
  | doubled _ ih => exact .doubled ih
  | plain unescaped unquoted _ ih => exact .plain unescaped unquoted ih

private theorem string_continues_behind (front : StringInside head)
    (behind : ∃ closed, Continues (Lexeme.string · closed) text) :
    ∃ closed, Continues (Lexeme.string · closed) (head ++ text) := by
  obtain ⟨closed, body, rest, rfl, formed, ends⟩ := behind
  refine ⟨closed, head ++ body, rest, (List.append_assoc ..).symm, ?_⟩
  cases closed with
  | true =>
    obtain ⟨inside, within, rfl⟩ := formed
    exact ⟨⟨head ++ inside, string_inside_append front within, by simp⟩, ends⟩
  | false =>
    rcases formed with within | ⟨inside, within, rfl⟩
    · exact ⟨.inl (string_inside_append front within), ends⟩
    · exact ⟨.inr ⟨head ++ inside, string_inside_append front within, by simp⟩, ends⟩

private theorem string_continues (text : Text) :
    ∃ closed, Continues (Lexeme.string · closed) text := by
  match text with
  | [] => exact ⟨false, [], [], rfl, .inl .nil, rfl⟩
  | [c] =>
    by_cases escape : c = '\\'
    · exact ⟨false, [c], [], rfl, .inr ⟨[], .nil, by simp [escape]⟩, rfl⟩
    by_cases quote : c = '\''
    · exact ⟨true, [c], [], rfl, ⟨[], .nil, by simp [quote]⟩, by simp [EndsBefore]⟩
    · exact string_continues_behind (.plain escape quote .nil) (string_continues [])
  | c :: d :: text =>
    by_cases escape : c = '\\'
    · subst escape
      exact string_continues_behind (.escaped .nil) (string_continues text)
    by_cases quote : c = '\''
    · subst quote
      by_cases double : d = '\''
      · subst double
        exact string_continues_behind (.doubled .nil) (string_continues text)
      · exact ⟨true, ['\''], d :: text, rfl, ⟨[], .nil, rfl⟩, by simpa [EndsBefore] using double⟩
    · exact string_continues_behind (.plain escape quote .nil) (string_continues (d :: text))

private theorem identifier_inside_append (front : IdentifierInside head)
    (back : IdentifierInside tail) : IdentifierInside (head ++ tail) := by
  induction front with
  | nil => exact back
  | doubled _ ih => exact .doubled ih
  | plain unquoted _ ih => exact .plain unquoted ih

private theorem identifier_continues_behind (front : IdentifierInside head)
    (behind : ∃ closed, Continues (Lexeme.identifier · closed) text) :
    ∃ closed, Continues (Lexeme.identifier · closed) (head ++ text) := by
  obtain ⟨closed, body, rest, rfl, formed, ends⟩ := behind
  refine ⟨closed, head ++ body, rest, (List.append_assoc ..).symm, ?_⟩
  cases closed with
  | true =>
    obtain ⟨inside, within, rfl⟩ := formed
    exact ⟨⟨head ++ inside, identifier_inside_append front within, by simp⟩, ends⟩
  | false => exact ⟨identifier_inside_append front formed, ends⟩

private theorem identifier_continues (text : Text) :
    ∃ closed, Continues (Lexeme.identifier · closed) text := by
  match text with
  | [] => exact ⟨false, [], [], rfl, .nil, rfl⟩
  | [c] =>
    by_cases quote : c = '"'
    · exact ⟨true, [c], [], rfl, ⟨[], .nil, by simp [quote]⟩, by simp [EndsBefore]⟩
    · exact identifier_continues_behind (.plain quote .nil) (identifier_continues [])
  | c :: d :: text =>
    by_cases quote : c = '"'
    · subst quote
      by_cases double : d = '"'
      · subst double
        exact identifier_continues_behind (.doubled .nil) (identifier_continues text)
      · exact ⟨true, ['"'], d :: text, rfl, ⟨[], .nil, rfl⟩, by simpa [EndsBefore] using double⟩
    · exact identifier_continues_behind (.plain quote .nil) (identifier_continues (d :: text))

private theorem line_comment_continues (text : Text) : Continues Lexeme.lineComment text := by
  induction text with
  | nil => exact ⟨[], [], rfl, by simp [Formed], .inl rfl⟩
  | cons c text ih =>
    by_cases newline : c = '\n'
    · exact ⟨[], c :: text, rfl, by simp [Formed], .inr (by simp [newline])⟩
    · obtain ⟨body, rest, rfl, formed, ends⟩ := ih
      refine ⟨c :: body, rest, rfl, ?_, ends⟩
      simpa [Formed, Ne.symm newline] using formed

private theorem not_closing_cons (never : ¬ closing <:+: text)
    (other : ¬ (c = '*' ∧ text.head? = some '/')) : ¬ closing <:+: c :: text := by
  rw [List.infix_cons_iff]
  rintro (⟨rest, here⟩ | later)
  · obtain ⟨rfl, rfl⟩ := List.cons.inj here
    exact other ⟨rfl, rfl⟩
  · exact never later

private theorem block_comment_continues (text : Text) : Continues Lexeme.blockComment text := by
  induction text with
  | nil => exact ⟨[], [], rfl, .inr (by decide), .inr rfl⟩
  | cons c text ih =>
    by_cases here : c = '*' ∧ text.head? = some '/'
    · obtain ⟨rfl, slash⟩ := here
      obtain ⟨rest, rfl⟩ := List.head?_eq_some_iff.mp slash
      exact ⟨closing, rest, rfl, .inl ⟨[], rfl, by decide⟩, .inl (List.suffix_refl _)⟩
    · obtain ⟨body, rest, rfl, formed, ends⟩ := ih
      refine ⟨c :: body, rest, rfl, ?_, ends.imp_left fun closed => ?_⟩
      · rcases formed with ⟨inside, rfl, first⟩ | never
        · refine .inl ⟨c :: inside, rfl, not_closing_cons first ?_⟩
          cases inside with
          | nil => simp
          | cons d inside => simpa using here
        · refine .inr (not_closing_cons never ?_)
          cases body with
          | nil => simp
          | cons d body => simpa using here
      · exact closed.trans (List.suffix_cons ..)

/-- Every text that is not empty begins with a lexeme. -/
theorem first_lexeme (c : Char) (text : Text) :
    ∃ lexeme rest, c :: text = lexeme.source ++ rest ∧ Formed lexeme ∧
      EndsBefore lexeme rest.head? := by
  by_cases quote : c = '\''
  · obtain ⟨closed, body, rest, rfl, formed, ends⟩ := string_continues text
    exact ⟨_, rest, by simp [source, quote], formed, ends⟩
  by_cases double : c = '"'
  · obtain ⟨closed, body, rest, rfl, formed, ends⟩ := identifier_continues text
    exact ⟨_, rest, by simp [source, double], formed, ends⟩
  match text with
  | [] => exact ⟨.char c, [], rfl, ⟨quote, double⟩, by simp [EndsBefore]⟩
  | d :: text =>
    by_cases line : c = '-' ∧ d = '-'
    · obtain ⟨body, rest, rfl, formed, ends⟩ := line_comment_continues text
      exact ⟨_, rest, by simp [source, line], formed, ends⟩
    by_cases block : c = '/' ∧ d = '*'
    · obtain ⟨body, rest, rfl, formed, ends⟩ := block_comment_continues text
      exact ⟨_, rest, by simp [source, block], formed, ends⟩
    · refine ⟨.char c, d :: text, rfl, ⟨quote, double⟩, ?_, ?_⟩
      · rintro rfl next
        exact line ⟨rfl, by simpa using next⟩
      · rintro rfl next
        exact block ⟨rfl, by simpa using next⟩

/-- Every text is cut into the lexemes read from it, and into no others. -/
theorem cut_iff_reads : Cut text lexemes ↔ ofText text = lexemes := by
  refine ⟨cut_reads, ?_⟩
  rintro rfl
  induction length : text.length using Nat.strongRecOn generalizing text with
  | ind length ih =>
    cases text with
    | nil => exact .nil
    | cons c text =>
      obtain ⟨lexeme, rest, same, formed, ends⟩ := first_lexeme c text
      rw [same, source_reads formed ends]
      refine .cons formed ends (ih rest.length ?_ rfl)
      have shorter := congrArg List.length same
      have nonempty : lexeme.source ≠ [] := by cases lexeme <;> simp [source]
      have := List.length_pos_iff.mpr nonempty
      simp only [List.length_cons, List.length_append] at shorter length
      omega

theorem text_cut (text : Text) : Cut text (ofText text) := cut_iff_reads.mpr rfl

/-- A quote that nothing closes, and the words for it. -/
inductive LeftOpen : Lexeme → String → Prop
  | string : LeftOpen (.string body false) "unterminated string literal"
  | identifier : LeftOpen (.identifier body false) "unterminated quoted identifier"

/-- Only the end of the text stands behind a quote that nothing closes. -/
theorem left_open_last (opened : LeftOpen lexeme words) (ends : EndsBefore lexeme rest.head?) :
    rest = [] := by
  cases opened <;> exact List.head?_eq_none_iff.mp ends

theorem open_quote_skips (settled : ∀ words, ¬ LeftOpen lexeme words) :
    openQuote? offset (lexeme :: lexemes) =
      openQuote? (offset + Text.byteLength lexeme.source) lexemes := by
  cases lexeme with
  | string body closed =>
    cases closed with
    | true => rfl
    | false => exact absurd .string (settled _)
  | identifier body closed =>
    cases closed with
    | true => rfl
    | false => exact absurd .identifier (settled _)
  | lineComment body => rfl
  | blockComment body => rfl
  | char c => rfl

private theorem open_quote_found (offset : Nat) (lexemes : List Lexeme)
    (opened : LeftOpen lexeme words) :
    ∃ fault, fault.message = words ∧
      openQuote? offset (lexeme :: lexemes) = some ⟨offset, fault⟩ := by
  cases opened with
  | string => exact ⟨.unterminatedString, rfl, rfl⟩
  | identifier => exact ⟨.unterminatedIdentifier, rfl, rfl⟩

/-- The open quote of a cut is its last lexeme, reported at the byte it opens
at. -/
theorem open_quote_last (cut : Cut text lexemes) (found : openQuote? offset lexemes = some error) :
    ∃ before last, lexemes = before ++ [last] ∧ LeftOpen last error.fault.message ∧
      error.position = offset + Text.byteLength (sourceOf before) := by
  induction cut generalizing offset with
  | nil => cases found
  | @cons lexeme rest lexemes formed ends cut ih =>
    by_cases opened : ∃ words, LeftOpen lexeme words
    · obtain ⟨words, opened⟩ := opened
      obtain ⟨fault, message, report⟩ := open_quote_found offset lexemes opened
      cases Option.some.inj (report.symm.trans found)
      have behind : lexemes = [] := by
        rw [← cut_reads cut, left_open_last opened ends, ofText]
      exact ⟨[], lexeme, by simp [behind], message ▸ opened, by simp [sourceOf]⟩
    · rw [open_quote_skips fun words opened' => opened ⟨words, opened'⟩] at found
      obtain ⟨before, last, rfl, opened', position⟩ := ih found
      refine ⟨lexeme :: before, last, rfl, opened', ?_⟩
      rw [position]
      simp [sourceOf, Nat.add_assoc]

/-- A cut that reports nothing has all its quotes closed. -/
theorem open_quote_none (none : openQuote? offset lexemes = none) :
    ∀ lexeme ∈ lexemes, ∀ words, ¬ LeftOpen lexeme words := by
  induction lexemes generalizing offset with
  | nil => simp
  | cons lexeme lexemes ih =>
    have settled : ∀ words, ¬ LeftOpen lexeme words := by
      intro words opened
      obtain ⟨fault, -, report⟩ := open_quote_found offset lexemes opened
      rw [report] at none
      cases none
    rw [open_quote_skips settled] at none
    exact List.forall_mem_cons.mpr ⟨settled, ih none⟩

/-- A semicolon that stands outside quotes and comments. -/
def separator : Lexeme := .char ';'

theorem is_separator_iff : lexeme.isSeparator ↔ lexeme = separator := by
  simp [isSeparator, separator]

/-- The runs between separators, joined by separators, are all lexemes. -/
theorem runs_joined (lexemes : List Lexeme) : [separator].intercalate (runs lexemes) = lexemes := by
  induction lexemes with
  | nil => rfl
  | cons lexeme lexemes ih =>
    cases split : runsFrom lexemes with
    | mk first others =>
      simp only [runs, split] at ih
      by_cases separates : lexeme.isSeparator
      · have same := is_separator_iff.mp separates
        simpa [runs, runsFrom, split, separates, List.intercalate, ← same] using ih
      · cases others <;>
          simpa [runs, runsFrom, split, separates, List.intercalate] using ih

/-- No run has a separator in it. -/
theorem runs_separated (lexemes : List Lexeme) : ∀ run ∈ runs lexemes, separator ∉ run := by
  induction lexemes with
  | nil => simp [runs, runsFrom]
  | cons lexeme lexemes ih =>
    cases split : runsFrom lexemes with
    | mk first others =>
      simp only [runs, split] at ih
      by_cases separates : lexeme.isSeparator
      · simpa [runs, runsFrom, split, separates] using ih
      · have other : separator ≠ lexeme :=
          fun same => separates (is_separator_iff.mpr same.symm)
        simpa [runs, runsFrom, split, separates, other] using ih

/-- The offsets of the markers of a run are those of its question marks outside
quotes, counted in the clean text from `base` on. -/
theorem mem_markers : offset ∈ markersOf base run ↔
    ∃ front back, run = front ++ .char '?' :: back ∧ offset = base + (cleanOf front).length := by
  induction run generalizing base with
  | nil => simp [markersOf]
  | cons lexeme run ih =>
    have split : (∃ front back, lexeme :: run = front ++ .char '?' :: back ∧
          offset = base + (cleanOf front).length) ↔
        (lexeme = .char '?' ∧ offset = base) ∨
          offset ∈ markersOf (base + lexeme.clean.length) run := by
      rw [ih]
      constructor
      · rintro ⟨front, back, same, place⟩
        cases front with
        | nil => exact .inl ⟨(List.cons.inj same).1, by simpa [cleanOf] using place⟩
        | cons first front =>
          obtain ⟨rfl, rfl⟩ := List.cons.inj same
          exact .inr ⟨front, back, rfl, by simpa [cleanOf, Nat.add_assoc] using place⟩
      · rintro (⟨rfl, rfl⟩ | ⟨front, back, rfl, rfl⟩)
        · exact ⟨[], run, rfl, by simp [cleanOf]⟩
        · exact ⟨lexeme :: front, back, rfl, by simp [cleanOf, Nat.add_assoc]⟩
    rw [split]
    by_cases marker : lexeme = .char '?'
    · simp [markersOf, isMarker, marker]
    · simp [markersOf, isMarker, marker]

theorem markers_ascend (base : Nat) (run : List Lexeme) :
    (markersOf base run).Pairwise (· < ·) ∧ ∀ offset ∈ markersOf base run, base ≤ offset := by
  induction run generalizing base with
  | nil => simp [markersOf]
  | cons lexeme run ih =>
    obtain ⟨ascends, above⟩ := ih (base + lexeme.clean.length)
    by_cases marker : lexeme = .char '?'
    · subst marker
      have width : (Lexeme.char '?').clean.length = 1 := rfl
      rw [width] at ascends above
      have marks : markersOf base (.char '?' :: run) = base :: markersOf (base + 1) run := by
        simp [markersOf, isMarker, width]
      rw [marks]
      refine ⟨List.pairwise_cons.mpr ⟨fun offset member => above offset member, ascends⟩, ?_⟩
      intro offset member
      rcases List.mem_cons.mp member with rfl | member
      · exact Nat.le_refl _
      · exact Nat.le_of_succ_le (above offset member)
    · have marks : markersOf base (lexeme :: run) =
          markersOf (base + lexeme.clean.length) run := by
        simp [markersOf, isMarker, marker]
      rw [marks]
      exact ⟨ascends, fun offset member => Nat.le_trans (Nat.le_add_right ..) (above offset member)⟩

/-- What a segment says of the run it stands for, given the lexemes of the script
before that run. -/
structure Describes (before run : List Lexeme) (segment : Segment) : Prop where
  start : segment.start = Text.byteLength (sourceOf before)
  stop : segment.stop = Text.byteLength (sourceOf (before ++ run))
  source : segment.source = sourceOf run
  clean : segment.clean = cleanOf run
  markers : ∀ offset, offset ∈ segment.markers ↔
    ∃ front back, run = front ++ .char '?' :: back ∧ offset = (cleanOf front).length
  ascending : segment.markers.Pairwise (· < ·)

theorem run_described (before run : List Lexeme) :
    Describes before run (Segment.ofRun (Text.byteLength (sourceOf before)) run) where
  start := rfl
  stop := by simp [Segment.stop, Segment.ofRun, sourceOf]
  source := rfl
  clean := rfl
  markers offset := by simpa [Segment.ofRun] using (mem_markers : offset ∈ markersOf 0 run ↔ _)
  ascending := (markers_ascend 0 run).1

/-- One segment a run, in order, with one separator between neighbours. -/
inductive Segmented : List Lexeme → List (List Lexeme) → List Segment → Prop
  | nil : Segmented before [] []
  | cons {segment : Segment} : Describes before run segment →
      Segmented (before ++ run ++ [separator]) others segments →
      Segmented before (run :: others) (segment :: segments)

private theorem runs_segmented (runs : List (List Lexeme)) (before : List Lexeme) :
    Segmented before runs (Segment.ofRuns (Text.byteLength (sourceOf before)) runs) := by
  induction runs generalizing before with
  | nil => exact .nil
  | cons run runs ih =>
    refine .cons (run_described before run) ?_
    have next : (Segment.ofRun (Text.byteLength (sourceOf before)) run).stop + 1 =
        Text.byteLength (sourceOf (before ++ run ++ [separator])) := by
      rw [(run_described before run).stop]
      simp [sourceOf, separator, source, Char.utf8Size, Nat.add_assoc]
    simpa only [next] using ih (before ++ run ++ [separator])

/-- Scanning is the lexis. Every script has exactly one cut into lexemes. Scanning
it fails just when the last lexeme of the cut is a quote that nothing closes, in
the words for that quote and at the byte it opens at; otherwise it gives one
segment for each run of the cut between separators. -/
theorem scan_follows_lexis (script : Text) :
    ∃ lexemes, (∀ other, Cut script other ↔ other = lexemes) ∧
      match Segment.scan script with
      | .error error => ∃ before last, lexemes = before ++ [last] ∧
          LeftOpen last error.fault.message ∧
          error.position = Text.byteLength (sourceOf before)
      | .ok segments => (∀ lexeme ∈ lexemes, ∀ words, ¬ LeftOpen lexeme words) ∧
          ∃ runs, runs ≠ [] ∧ [separator].intercalate runs = lexemes ∧
            (∀ run ∈ runs, separator ∉ run) ∧ Segmented [] runs segments := by
  refine ⟨ofText script, fun other => cut_iff_reads.trans eq_comm, ?_⟩
  cases found : openQuote? 0 (ofText script) with
  | some error =>
    have fails : Segment.scan script = .error error := by simp [Segment.scan, found]
    rw [fails]
    obtain ⟨before, last, same, opened, position⟩ := open_quote_last (text_cut script) found
    exact ⟨before, last, same, opened, by simpa using position⟩
  | none =>
    have scans : Segment.scan script = .ok (Segment.ofRuns 0 (runs (ofText script))) := by
      simp [Segment.scan, found]
    rw [scans]
    refine ⟨open_quote_none found, runs (ofText script), by simp [runs], runs_joined _,
      runs_separated _, ?_⟩
    simpa [sourceOf] using runs_segmented (runs (ofText script)) []

end SqlWire.Lexis
