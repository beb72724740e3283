import Mathlib
import SqlWire.Proofs.LiteralLexis
import SqlWire.Proofs.Substitution

/-! Reading bound text again. A literal is put in the place of its marker whatever
stands around it, so two neighbourhoods change the lexis: a dash in front of a
negative number begins a comment, and two quotes back to back become one escaped
quote. The pieces of a bound text are described beside the text, and outside these
two cases the text is cut into just the lexemes of its pieces. There is a bound text
whenever the values have literals. -/
namespace SqlWire.Rescan
open Lexeme Lexis Cleaning Rendering LiteralLexis Substitution NumeralText

/-- A part of a bound text: a lexeme of the clean text, or the literal of a value in
the place of a marker. -/
inductive Piece where
  | kept (lexeme : Lexeme)
  | bound (value : Param)

namespace Piece

def text : Piece → Text
  | .kept lexeme => lexeme.source
  | .bound value => literalOf value

/-- The lexemes of a piece on its own. -/
def lexemes : Piece → List Lexeme
  | .kept lexeme => [lexeme]
  | .bound value => ofText (literalOf value)

/-- A piece between single quotes. -/
def IsQuoted : Piece → Prop
  | .kept (.string _ _) => True
  | .kept _ => False
  | .bound value => Rendering.IsQuoted value

end Piece

/-- The pieces of a clean text whose markers are bound to values in order. -/
def piecesOf : List Lexeme → List Param → List Piece
  | [], _ => []
  | lexeme :: lexemes, values =>
    if lexeme.isMarker then
      match values with
      | [] => .kept lexeme :: piecesOf lexemes []
      | value :: others => .bound value :: piecesOf lexemes others
    else .kept lexeme :: piecesOf lexemes values

/-- The text of some pieces. -/
def textOf (pieces : List Piece) : Text := pieces.flatMap Piece.text

/-- A dash stands directly before a negative number. -/
def DashClash (pieces : List Piece) : Prop :=
  ∃ value, IsNegative value ∧ [.kept (.char '-'), .bound value] <:+: pieces

/-- Two quoted pieces stand back to back. -/
def QuoteClash (pieces : List Piece) : Prop :=
  ∃ first second, first.IsQuoted ∧ second.IsQuoted ∧ [first, second] <:+: pieces

private theorem pieces_text (lexemes : List Lexeme) (values : List Param) :
    textOf (piecesOf lexemes values) = replaced lexemes (values.map literalOf) := by
  induction lexemes generalizing values with
  | nil => rfl
  | cons lexeme lexemes ih =>
    by_cases marker : lexeme.isMarker
    · cases values with
      | nil => simpa [piecesOf, replaced, marker, textOf, Piece.text] using ih []
      | cons value values => simpa [piecesOf, replaced, marker, textOf, Piece.text] using ih values
    · simpa [piecesOf, replaced, marker, textOf, Piece.text] using ih values

/-! ## Neighbours -/

/-- Pieces whose lexemes stood one after the other when markers stood where the
literals are. -/
inductive Suited : List Piece → Prop where
  | nil : Suited []
  | kept (formed : Formed lexeme) (inert : Inert lexeme)
      (ends : ∀ other rest, pieces = .kept other :: rest → EndsBefore lexeme other.source.head?)
      (behind : Suited pieces) : Suited (.kept lexeme :: pieces)
  | bound (plain : NoFloat value) (behind : Suited pieces) : Suited (.bound value :: pieces)

private theorem suited_pieces {values : List Param} (joined : Joined none lexemes)
    (settled : ∀ lexeme ∈ lexemes, Settled lexeme) (single : separator ∉ lexemes)
    (plain : ∀ value ∈ values, NoFloat value)
    (count : values.length = (markersOf base lexemes).length) :
    Suited (piecesOf lexemes values) := by
  induction lexemes generalizing values base with
  | nil => exact .nil
  | cons lexeme lexemes ih =>
    obtain ⟨formed, ends, others⟩ := joined
    rw [List.mem_cons, not_or] at single
    have settledOthers : ∀ other ∈ lexemes, Settled other :=
      fun other member => settled other (List.mem_cons_of_mem _ member)
    rw [Option.or_none] at ends
    by_cases marker : lexeme = .char '?'
    · subst marker
      cases values with
      | nil => cases count
      | cons value values =>
        obtain ⟨first, behind⟩ := List.forall_mem_cons.mp plain
        have suited := ih others settledOthers single.2 behind (Nat.succ.inj count)
        simpa [piecesOf, isMarker] using Suited.bound first suited
    · have suited := ih others settledOthers single.2 plain
        (by simpa [markersOf, isMarker, marker] using count)
      have next : ∀ other rest, piecesOf lexemes values = .kept other :: rest →
          EndsBefore lexeme other.source.head? := by
        intro other rest same
        cases lexemes with
        | nil => cases same
        | cons following lexemes =>
          rw [source_starts] at ends
          by_cases marked : following.isMarker
          · cases values <;> simp_all [piecesOf]
          · simp_all [piecesOf]
      have inert : Inert lexeme :=
        ⟨settled _ List.mem_cons_self, marker, fun same => single.1 same.symm⟩
      simpa [piecesOf, isMarker, marker] using Suited.kept formed inert next suited

/-- Whether a piece and what follows it are a dash and a negative number. -/
def DashBefore (piece : Piece) (next : Option Piece) : Prop :=
  piece = .kept (.char '-') ∧ ∃ value, IsNegative value ∧ next = some (.bound value)

/-- Whether a piece and what follows it are both quoted. -/
def QuoteBefore (piece : Piece) (next : Option Piece) : Prop :=
  piece.IsQuoted ∧ ∃ other, other.IsQuoted ∧ next = some other

private theorem pair_infix_cons {list : List α} : [first, second] <:+: a :: list ↔
    (a = first ∧ list.head? = some second) ∨ [first, second] <:+: list := by
  rw [List.infix_cons_iff, List.cons_prefix_cons]
  cases list with
  | nil => simp
  | cons b list => simp [List.cons_prefix_cons, eq_comm]

private theorem dash_clash_cons :
    DashClash (piece :: pieces) ↔ DashBefore piece pieces.head? ∨ DashClash pieces := by
  simp only [DashClash, DashBefore, pair_infix_cons]
  constructor
  · rintro ⟨value, negative, ⟨dash, next⟩ | behind⟩
    · exact .inl ⟨dash, value, negative, next⟩
    · exact .inr ⟨value, negative, behind⟩
  · rintro (⟨dash, value, negative, next⟩ | ⟨value, negative, behind⟩)
    · exact ⟨value, negative, .inl ⟨dash, next⟩⟩
    · exact ⟨value, negative, .inr behind⟩

private theorem quote_clash_cons :
    QuoteClash (piece :: pieces) ↔ QuoteBefore piece pieces.head? ∨ QuoteClash pieces := by
  simp only [QuoteClash, QuoteBefore, pair_infix_cons]
  constructor
  · rintro ⟨first, second, opens, closes, ⟨rfl, next⟩ | behind⟩
    · exact .inl ⟨opens, second, closes, next⟩
    · exact .inr ⟨first, second, opens, closes, behind⟩
  · rintro (⟨opens, second, closes, next⟩ | ⟨first, second, opens, closes, behind⟩)
    · exact ⟨piece, second, opens, closes, .inl ⟨rfl, next⟩⟩
    · exact ⟨first, second, opens, closes, .inr behind⟩

/-- What can happen where a piece meets the pieces behind it. -/
inductive Meets (piece : Piece) (pieces : List Piece) : Prop where
  | apart (noDash : ¬ DashBefore piece pieces.head?) (noQuote : ¬ QuoteBefore piece pieces.head?)
      (reads : ofText (piece.text ++ textOf pieces) = piece.lexemes ++ ofText (textOf pieces))
  | comment (dash : DashBefore piece pieces.head?)
      (reads : ofText (piece.text ++ textOf pieces) = .lineComment body :: rest)
  | merged (noDash : ¬ DashBefore piece pieces.head?) (quote : QuoteBefore piece pieces.head?)
      (alone : piece.lexemes = [.string (inside ++ ['\'']) true])
      (next : ofText (textOf pieces) = .string body closed :: rest)
      (reads : ofText (piece.text ++ textOf pieces) =
        .string (inside ++ '\'' :: '\'' :: body) closed :: rest)

private theorem text_starts (piece : Piece) (pieces : List Piece) :
    textOf (piece :: pieces) = piece.text ++ textOf pieces := by
  simp [textOf]

/-- Two quotes back to back are one quote of a longer string. -/
theorem strings_merge (within : StringInside inside) :
    ofText ('\'' :: inside ++ '\'' :: '\'' :: rest) =
      .string (inside ++ '\'' :: '\'' :: (inString rest).body) (inString rest).closed ::
        (inString rest).next := by
  rw [List.cons_append, quote_opens]
  have reads : inString (inside ++ '\'' :: '\'' :: rest) =
      (inString rest).extend (inside ++ ['\'', '\'']) := by
    induction within with
    | nil => simp [inString]
    | escaped within ih => simp [inString, ih, Pending.extend]
    | doubled within ih => simp [inString, ih, Pending.extend]
    | @plain c inside unescaped unquoted within ih =>
      cases inside <;> simp_all [inString, Pending.extend]
  simp [reads, Pending.extend]

/-- A suited piece begins with a quote just when it is quoted. -/
theorem quote_starts (suited : Suited (piece :: pieces)) :
    (textOf (piece :: pieces)).head? = some '\'' ↔ piece.IsQuoted := by
  rw [text_starts]
  cases suited with
  | @kept lexeme _ formed inert =>
    cases inert.settled with
    | string => simp [Piece.text, Lexeme.source, Piece.IsQuoted]
    | identifier => simp [Piece.text, Lexeme.source, Piece.IsQuoted]
    | char => simpa [Piece.text, Lexeme.source, Piece.IsQuoted] using formed.1
  | @bound value _ plain =>
    obtain ⟨c, rest, same, -, -, quote⟩ := literal_starts plain
    simpa [Piece.text, same, Piece.IsQuoted] using quote

/-- A quoted piece is a single string. -/
theorem quoted_alone (suited : Suited (piece :: pieces)) (quotes : piece.IsQuoted) :
    ∃ inside, StringInside inside ∧ piece.text = '\'' :: inside ++ ['\''] ∧
      piece.lexemes = [.string (inside ++ ['\'']) true] := by
  cases suited with
  | @kept lexeme _ formed inert =>
    cases inert.settled with
    | string =>
      obtain ⟨inside, within, rfl⟩ := formed
      exact ⟨inside, within, rfl, rfl⟩
    | identifier => exact absurd quotes id
    | char => exact absurd quotes id
  | bound plain => exact quoted_string plain quotes

private theorem kept_ends (formed : Formed lexeme) (inert : Inert lexeme)
    (ends : ∀ other rest, pieces = .kept other :: rest → EndsBefore lexeme other.source.head?)
    (behind : Suited pieces) (noDash : ¬ DashBefore (.kept lexeme) pieces.head?)
    (noQuote : ¬ QuoteBefore (.kept lexeme) pieces.head?) :
    EndsBefore lexeme (textOf pieces).head? := by
  cases behind with
  | nil => exact settled_ends inert.settled (by simp [textOf])
  | @kept other pieces =>
    have next : (textOf (.kept other :: pieces)).head? = other.source.head? := by
      cases other <;> rfl
    rw [next]
    exact ends other pieces rfl
  | @bound value pieces plain =>
    obtain ⟨c, rest, same, start, dash, quote⟩ := literal_starts plain
    have next : (textOf (.bound value :: pieces)).head? = some c := by
      simp [text_starts, Piece.text, same]
    rw [next]
    cases inert.settled with
    | string =>
      intro found
      exact noQuote ⟨trivial, .bound value, quote.mp (Option.some.inj found), rfl⟩
    | identifier =>
      intro found
      cases Option.some.inj found
      revert start
      simp [LiteralStart]
    | @char d =>
      constructor
      · rintro rfl found
        exact noDash ⟨rfl, value, dash.mp (Option.some.inj found), rfl⟩
      · rintro rfl found
        cases Option.some.inj found
        revert start
        simp [LiteralStart]

/-- Pieces that suit each other meet in one of the three ways. -/
theorem suited_meets (suited : Suited (piece :: pieces)) : Meets piece pieces := by
  have behind : Suited pieces := by cases suited <;> assumption
  by_cases dash : DashBefore piece pieces.head?
  · obtain ⟨rfl, value, negative, next⟩ := dash
    cases behind with
    | nil => cases next
    | kept => cases next
    | @bound other pieces plain =>
      cases next
      obtain ⟨c, rest, same, -, sign, -⟩ := literal_starts plain
      have reads : ofText ('-' :: '-' :: (rest ++ textOf pieces)) =
          .lineComment (inLineComment (rest ++ textOf pieces)).body ::
            (inLineComment (rest ++ textOf pieces)).next := by
        simp [ofText]
      have whole : (Piece.kept (.char '-')).text ++ textOf (.bound value :: pieces) =
          '-' :: '-' :: (rest ++ textOf pieces) := by
        rw [text_starts, Piece.text, Piece.text, same, sign.mpr negative]
        rfl
      exact .comment ⟨rfl, value, negative, rfl⟩ (whole.symm ▸ reads)
  by_cases quote : QuoteBefore piece pieces.head?
  · obtain ⟨opens, other, closes, next⟩ := quote
    cases pieces with
    | nil => cases next
    | cons following pieces =>
      cases next
      obtain ⟨inside, within, text, alone⟩ := quoted_alone suited opens
      obtain ⟨body, -, same, -⟩ := quoted_alone behind closes
      have front : textOf (other :: pieces) = '\'' :: (body ++ '\'' :: textOf pieces) := by
        simp [text_starts, same]
      have whole : piece.text ++ textOf (other :: pieces) =
          '\'' :: inside ++ '\'' :: '\'' :: (body ++ '\'' :: textOf pieces) := by
        simp [front, text]
      exact .merged dash ⟨opens, other, closes, rfl⟩ alone (front ▸ quote_opens)
        (whole ▸ strings_merge within)
  refine .apart dash quote ?_
  cases suited with
  | kept formed inert ends behind =>
    exact source_reads formed (kept_ends formed inert ends behind dash quote)
  | @bound value _ plain =>
    refine literal_reads plain fun quotes next => quote ⟨quotes, ?_⟩
    cases behind with
    | nil => cases next
    | kept formed inert ends behind =>
      exact ⟨_, (quote_starts (.kept formed inert ends behind)).mp next, rfl⟩
    | bound plain behind => exact ⟨_, (quote_starts (.bound plain behind)).mp next, rfl⟩

/-! ## Reading the pieces again -/

private theorem suited_behind (suited : Suited (piece :: pieces)) : Suited pieces := by
  cases suited <;> assumption

private theorem suited_inert (suited : Suited (piece :: pieces)) :
    ∀ lexeme ∈ piece.lexemes, Inert lexeme := by
  cases suited with
  | kept formed inert => simpa [Piece.lexemes] using inert
  | bound plain => exact literal_inert plain

private theorem string_inert : Inert (.string body closed) ↔ closed = true := by
  constructor
  · intro inert
    cases inert.settled
    rfl
  · rintro rfl
    exact ⟨.string, by simp, by simp [separator]⟩

private theorem comment_not_inert : ¬ Inert (.lineComment body) := by
  intro inert
  cases inert.settled

/-- Everything that is read from a bound text is inert, unless a dash and a number
open a comment. -/
theorem rescan_inert (suited : Suited pieces) :
    (∀ lexeme ∈ ofText (textOf pieces), Inert lexeme) ↔ ¬ DashClash pieces := by
  induction pieces with
  | nil => simp [textOf, ofText, DashClash]
  | cons piece pieces ih =>
    have others := ih (suited_behind suited)
    rw [text_starts, dash_clash_cons]
    cases suited_meets suited with
    | apart noDash noQuote reads =>
      rw [reads, List.forall_mem_append, others, and_iff_right (suited_inert suited)]
      simp [noDash]
    | comment dash reads =>
      rw [reads, List.forall_mem_cons]
      simp [comment_not_inert, dash]
    | merged noDash quote alone next reads =>
      rw [next, List.forall_mem_cons, string_inert] at others
      rw [reads, List.forall_mem_cons, string_inert, others]
      simp [noDash]

/-- The lexemes that are read from a bound text are those of its pieces, unless a
comment is opened or strings are merged. -/
theorem rescan_lexemes (suited : Suited pieces) :
    ofText (textOf pieces) = pieces.flatMap Piece.lexemes ↔
      ¬ DashClash pieces ∧ ¬ QuoteClash pieces := by
  induction pieces with
  | nil => simp [textOf, ofText, DashClash, QuoteClash]
  | cons piece pieces ih =>
    have others := ih (suited_behind suited)
    rw [text_starts, dash_clash_cons, quote_clash_cons, List.flatMap_cons]
    cases suited_meets suited with
    | apart noDash noQuote reads =>
      rw [reads, List.append_cancel_left_eq, others]
      simp [noDash, noQuote]
    | comment dash reads =>
      have alone : piece.lexemes = [.char '-'] := by rw [dash.1, Piece.lexemes]
      rw [reads, alone]
      simp [dash]
    | merged noDash quote alone next reads =>
      rw [reads, alone]
      simp [quote]

/-! ## The kind of a bound text -/

/-- A text that begins and ends like a literal. -/
def LiteralText (text : Text) : Prop :=
  (∃ c rest, text = c :: rest ∧ LiteralStart c) ∧ ∃ front c, text = front ++ [c] ∧ LiteralStop c

/-- A text and the same with literals in the place of some question marks. -/
inductive Grows : Text → Text → Prop where
  | nil : Grows [] []
  | same (grows : Grows before after) : Grows (c :: before) (c :: after)
  | literal (written : LiteralText literal) (grows : Grows before after) :
      Grows ('?' :: before) (literal ++ after)

private theorem grows_behind (front : Text) (grows : Grows before after) :
    Grows (front ++ before) (front ++ after) := by
  induction front with
  | nil => exact grows
  | cons c front ih => exact .same ih

private theorem replaced_grows (written : ∀ literal ∈ literals, LiteralText literal) :
    Grows (sourceOf lexemes) (replaced lexemes literals) := by
  induction lexemes generalizing literals with
  | nil => exact .nil
  | cons lexeme lexemes ih =>
    have front : sourceOf (lexeme :: lexemes) = lexeme.source ++ sourceOf lexemes := by
      simp [sourceOf]
    rw [front]
    by_cases marker : lexeme = .char '?'
    · cases literals with
      | nil => simpa [replaced, isMarker, marker] using grows_behind _ (ih written)
      | cons literal literals =>
        obtain ⟨first, others⟩ := List.forall_mem_cons.mp written
        simpa [replaced, isMarker, marker, Lexeme.source] using Grows.literal first (ih others)
    · simpa [replaced, isMarker, marker] using grows_behind _ (ih written)

/-- A text with more than blanks in it. -/
def Visible (text : Text) : Prop := ∃ c ∈ text, Text.isBlank c = false

private theorem trim_visible (text : Text) : (Text.trim text).isEmpty = false ↔ Visible text := by
  rw [Bool.eq_false_iff, ne_eq, List.isEmpty_iff, trim_eq_nil]
  simp [Visible]

private theorem start_visible (starts : LiteralStart c) : Text.isBlank c = false ∧ c ≠ '=' := by
  rcases starts with digit | mark
  · exact ⟨digit_not_blank digit, digit_ne digit (by decide)⟩
  · simp only [List.mem_cons, List.not_mem_nil, or_false] at mark
    rcases mark with rfl | rfl | rfl | rfl <;> decide

private theorem stop_visible (stops : LiteralStop c) : Text.isBlank c = false ∧ c ≠ '=' := by
  rcases stops with digit | mark
  · exact ⟨digit_not_blank digit, digit_ne digit (by decide)⟩
  · simp only [List.mem_cons, List.not_mem_nil, or_false] at mark
    rcases mark with rfl | rfl | rfl | rfl <;> decide

private theorem literal_visible (written : LiteralText literal) : Visible literal := by
  obtain ⟨⟨c, rest, rfl, starts⟩, -⟩ := written
  exact ⟨c, List.mem_cons_self, (start_visible starts).1⟩

private theorem visible_append (visible : Visible front) : Visible (front ++ back) := by
  obtain ⟨c, member, solid⟩ := visible
  exact ⟨c, List.mem_append_left _ member, solid⟩

private theorem grows_visible (grows : Grows before after) (visible : Visible before) :
    Visible after := by
  induction grows with
  | nil => exact visible
  | same grows ih =>
    obtain ⟨c, member, solid⟩ := visible
    rcases List.mem_cons.mp member with rfl | member
    · exact ⟨c, List.mem_cons_self, solid⟩
    · obtain ⟨d, member, solid⟩ := ih ⟨c, member, solid⟩
      exact ⟨d, List.mem_cons_of_mem _ member, solid⟩
  | literal written grows ih => exact visible_append (literal_visible written)

/-- An equals sign in a literal has something to be seen on both sides. -/
private theorem literal_equals (written : LiteralText literal) (inside : '=' ∈ literal) :
    ∃ front back, literal = front ++ '=' :: back ∧ '=' ∉ front ∧ Visible front ∧ Visible back := by
  obtain ⟨⟨first, rest, begins, starts⟩, init, last, ends, stops⟩ := written
  obtain ⟨front, back, split, clear⟩ := List.eq_append_cons_of_mem inside
  refine ⟨front, back, split, clear, ?_, ?_⟩
  · rw [split] at begins
    cases front with
    | nil => exact absurd (List.cons.inj begins).1.symm (start_visible starts).2
    | cons c front =>
      rw [List.cons_append, List.cons.injEq] at begins
      exact ⟨c, List.mem_cons_self, begins.1 ▸ (start_visible starts).1⟩
  · have final : (front ++ '=' :: back).getLast? = some last := by
      rw [← split, ends, List.getLast?_concat]
    cases back with
    | nil =>
      rw [List.getLast?_concat] at final
      exact absurd (Option.some.inj final).symm (stop_visible stops).2
    | cons c back =>
      rw [List.getLast?_append_cons, List.getLast?_cons_cons] at final
      exact ⟨last, List.mem_of_mem_getLast? final, (stop_visible stops).1⟩

/-- A text is cut behind its first character unless it is cut there. -/
private theorem cut_behind (other : c ≠ '=')
    (cut : Text.cutAt (· = '=') (c :: text) = some (key, value)) :
    ∃ front, key = c :: front ∧ Text.cutAt (· = '=') text = some (front, value) := by
  cases found : Text.cutAt (fun c => decide (c = '=')) text with
  | none => simp [Text.cutAt, other, found] at cut
  | some halves =>
    obtain ⟨front, back⟩ := halves
    simp only [Text.cutAt, other, decide_false, Bool.false_eq_true, ↓reduceIte, found,
      Option.map_some, Option.some.injEq, Prod.mk.injEq] at cut
    obtain ⟨rfl, rfl⟩ := cut
    exact ⟨front, rfl, rfl⟩

private theorem cut_passes (clear : '=' ∉ front)
    (cut : Text.cutAt (· = '=') text = some (key, value)) :
    Text.cutAt (· = '=') (front ++ text) = some (front ++ key, value) := by
  induction front with
  | nil => exact cut
  | cons c front ih =>
    rw [List.mem_cons, not_or] at clear
    have other : c ≠ '=' := fun same => clear.1 same.symm
    simp [Text.cutAt, other, ih clear.2]

/-- Literals move the first equals sign to the front at most, and leave something to
be seen on both sides of it. -/
theorem grows_cut (grows : Grows before after)
    (cut : Text.cutAt (· = '=') before = some (key, value)) :
    ∃ newKey newValue, Text.cutAt (· = '=') after = some (newKey, newValue) ∧
      (Visible key → Visible newKey) ∧ (Visible value → Visible newValue) := by
  induction grows generalizing key with
  | nil => cases cut
  | @same before after c grows ih =>
    by_cases equals : c = '='
    · simp only [Text.cutAt, equals, decide_true, ↓reduceIte, Option.some.injEq,
        Prod.mk.injEq] at cut ⊢
      obtain ⟨rfl, rfl⟩ := cut
      exact ⟨[], after, ⟨rfl, rfl⟩, id, grows_visible grows⟩
    · obtain ⟨front, rfl, behind⟩ := cut_behind equals cut
      obtain ⟨newKey, newValue, again, keeps, shows⟩ := ih behind
      refine ⟨c :: newKey, newValue, ?_, ?_, shows⟩
      · simp [Text.cutAt, equals, again]
      · rintro ⟨d, member, solid⟩
        rcases List.mem_cons.mp member with rfl | member
        · exact ⟨d, List.mem_cons_self, solid⟩
        · obtain ⟨e, member, solid⟩ := keeps ⟨d, member, solid⟩
          exact ⟨e, List.mem_cons_of_mem _ member, solid⟩
  | @literal literal before after written grows ih =>
    by_cases inside : '=' ∈ literal
    · obtain ⟨front, back, rfl, clear, left, right⟩ := literal_equals written inside
      refine ⟨front, back ++ after, ?_, fun _ => left, fun _ => visible_append right⟩
      rw [List.append_assoc, List.cons_append]
      refine Text.cutAt_append (fun c member => ?_) (by decide)
      exact decide_eq_false fun same => clear (same ▸ member)
    · obtain ⟨front, rfl, behind⟩ := cut_behind (by decide) cut
      obtain ⟨newKey, newValue, again, -, shows⟩ := ih behind
      exact ⟨literal ++ newKey, newValue, cut_passes inside again,
        fun _ => visible_append (literal_visible written), shows⟩

/-- A word of letters that no literal begins with was there before. -/
theorem grows_word {word rest : Text}
    (letters : ∀ w ∈ word, ∀ c, LiteralStart c → w.toLower ≠ c.toLower)
    (grows : Grows before after) (found : Text.dropWord? word after = some rest) :
    ∃ others, Text.dropWord? word before = some others ∧ Grows others rest := by
  induction word generalizing before after with
  | nil =>
    cases found
    exact ⟨before, rfl, grows⟩
  | cons w word ih =>
    have behind := fun v member => letters v (List.mem_cons_of_mem _ member)
    cases grows with
    | nil => cases found
    | @same before after c grows =>
      by_cases equal : w.toLower = c.toLower
      · simp only [Text.dropWord?, equal, ↓reduceIte] at found ⊢
        exact ih behind grows found
      · simp [Text.dropWord?, equal] at found
    | @literal literal before after written grows =>
      obtain ⟨⟨c, others, rfl, starts⟩, -⟩ := written
      have other := letters w List.mem_cons_self c starts
      simp [Text.dropWord?, other] at found

private theorem set_letters : ∀ w ∈ "set".toList, ∀ c, LiteralStart c → w.toLower ≠ c.toLower := by
  intro w member c starts
  have lower : w.toLower ∈ ['s', 'e', 't'] := by
    revert w
    simp
  rcases starts with digit | mark
  · rw [digit_lower digit]
    rintro same
    rw [same] at lower
    exact digit_not_mem digit _ rfl lower
  · simp only [List.mem_cons, List.not_mem_nil, or_false] at mark
    rintro same
    rw [same] at lower
    rcases mark with rfl | rfl | rfl | rfl <;> revert lower <;> decide

private theorem literal_not_blank (written : LiteralText literal)
    (blank : Text.isAsciiBlank c = true) : literal ++ rest ≠ c :: body := by
  obtain ⟨⟨d, others, rfl, starts⟩, -⟩ := written
  rintro same
  cases (List.cons.inj same).1
  revert blank
  rcases starts with digit | mark
  · have apart := digit_not_mem digit [' ', '\t', '\n', '\x0c', '\r'] rfl
    simp only [List.mem_cons, List.not_mem_nil, or_false, not_or] at apart
    simp [Text.isAsciiBlank, apart]
  · simp only [List.mem_cons, List.not_mem_nil, or_false] at mark
    rcases mark with rfl | rfl | rfl | rfl <;> decide

/-- A bound text that sets a parameter did so before it was bound. -/
private theorem grows_set (grows : Grows before after)
    (body : StatementKind.setBody? after = some text) :
    ∃ others, StatementKind.setBody? before = some others ∧ Grows others text := by
  unfold StatementKind.setBody? at body
  split at body
  next c rest word =>
    split at body
    next blank =>
      cases body
      obtain ⟨others, found, behind⟩ := grows_word set_letters grows word
      generalize joined : c :: rest = after at behind
      cases behind with
      | nil => cases joined
      | same behind =>
        cases joined
        refine ⟨_, ?_, .same behind⟩
        rw [StatementKind.setBody?, found]
        exact if_pos blank
      | literal written => exact absurd joined.symm (literal_not_blank written blank)
    · cases body
  · cases body

/-- A text that has a kind still has one when its markers are bound. -/
theorem grows_kind (grows : Grows before after) (kind : StatementKind.ofClean before = .ok found) :
    ∃ other, StatementKind.ofClean after = .ok other := by
  cases body : StatementKind.setBody? after with
  | none =>
    rw [StatementKind.ofClean, body]
    dsimp only
    split <;> exact ⟨_, rfl⟩
  | some text =>
    obtain ⟨others, set, behind⟩ := grows_set grows body
    rw [StatementKind.ofClean, set] at kind
    cases cut : Text.cutAt (fun c => decide (c = '=')) others with
    | none => simp [StatementKind.readAssignment, cut, Except.map] at kind
    | some halves =>
      obtain ⟨key, value⟩ := halves
      have shown : (Text.trim key).isEmpty = false ∧ (Text.trim value).isEmpty = false := by
        rw [← Bool.or_eq_false_iff, Bool.eq_false_iff]
        intro empty
        simp [StatementKind.readAssignment, cut, empty, Except.map] at kind
      obtain ⟨newKey, newValue, again, keeps, shows⟩ := grows_cut behind cut
      have keyLeft := (trim_visible newKey).mpr (keeps ((trim_visible key).mp shown.1))
      have valueLeft := (trim_visible newValue).mpr (shows ((trim_visible value).mp shown.2))
      simp [StatementKind.ofClean, body, StatementKind.readAssignment, again, keyLeft, valueLeft,
        Except.map]

/-! ## Analysing a bound text -/

private theorem grows_head (grows : Grows before after)
    (solid : ∀ c ∈ before.head?, Text.isBlank c = false) :
    ∀ c ∈ after.head?, Text.isBlank c = false := by
  cases grows with
  | nil => exact solid
  | same => exact solid
  | literal written =>
    obtain ⟨⟨c, rest, rfl, starts⟩, -⟩ := written
    rintro _ ⟨⟩
    exact (start_visible starts).1

private theorem grows_nil (grows : Grows before []) : before = [] := by
  generalize same : ([] : Text) = after at grows
  cases grows with
  | nil => rfl
  | same => cases same
  | literal written =>
    obtain ⟨⟨c, rest, rfl, -⟩, -⟩ := written
    cases same

/-- A blank at the end of a bound text was there before. -/
private theorem grows_last (grows : Grows before after) (blank : Text.isBlank c = true)
    (last : after.getLast? = some c) : before.getLast? = some c := by
  induction grows with
  | nil => exact last
  | @same before after d grows ih =>
    cases behind : after.getLast? with
    | none =>
      rw [List.getLast?_eq_none_iff.mp behind] at grows last
      rw [grows_nil grows]
      exact last
    | some e =>
      rw [List.getLast?_cons, behind] at last
      cases last
      rw [List.getLast?_cons, ih behind]
      rfl
  | @literal literal before after written grows ih =>
    cases behind : after.getLast? with
    | none =>
      obtain ⟨-, front, e, rfl, stops⟩ := written
      rw [List.getLast?_eq_none_iff.mp behind, List.append_nil, List.getLast?_concat] at last
      cases last
      rw [(stop_visible stops).1] at blank
      cases blank
    | some e =>
      rw [List.getLast?_append, behind] at last
      cases last
      rw [List.getLast?_cons, ih behind]
      rfl

/-- A text of inert lexemes without blanks around it is clean. -/
theorem inert_clean (inert : ∀ lexeme ∈ ofText text, Inert lexeme)
    (starts : ∀ c ∈ text.head?, Text.isBlank c = false)
    (stops : ∀ c ∈ text.getLast?, Text.isBlank c = false) : IsClean (ofText text) := by
  have source := text_source text
  refine ⟨text_joined text, fun lexeme member => (inert lexeme member).settled,
    fun member => (inert _ member).within rfl, fun lexeme first => ?_, fun lexeme last => ?_⟩
  · cases lexeme with
    | char c =>
      apply starts
      obtain ⟨rest, same⟩ := List.head?_eq_some_iff.mp first
      rw [← source, same]
      rfl
    | _ => rfl
  · cases lexeme with
    | char c =>
      apply stops
      obtain ⟨front, same⟩ := List.getLast?_eq_some_iff.mp last
      rw [← source, same, source_stops]
      rfl
    | _ => rfl

/-- A statement without markers whose text is clean is read from inert lexemes. -/
private theorem analyzed_inert (ok : Statement.analyze text = .ok again) (none : again.markers = [])
    (same : again.clean = text) : ∀ lexeme ∈ ofText text, Inert lexeme := by
  obtain ⟨lexemes, clean, source, markers, -⟩ := analyze_statement ok
  rw [← same, source, clean_reads clean]
  intro lexeme member
  refine ⟨clean.settled lexeme member, ?_, fun separates => clean.single (separates ▸ member)⟩
  rintro rfl
  obtain ⟨front, back, split⟩ := List.append_of_mem member
  have marked : 0 + (cleanOf front).length ∈ markersOf 0 lexemes :=
    mem_markers.mpr ⟨front, back, split, rfl⟩
  rw [none] at markers
  have count := congrArg List.length markers
  rw [numbered_length, List.length_nil] at count
  rw [List.length_eq_zero_iff.mp count.symm] at marked
  cases marked

private theorem empty_analyzed :
    Statement.analyze [] = .ok ⟨[], [], 0, 0, [], .nonQuery⟩ := by
  simp [Statement.analyze, Script.split, Segment.scan, ofText, openQuote?, runs, runsFrom,
    Segment.ofRuns, Segment.ofRun, sourceOf, cleanOf, markersOf, Script.ofSegments, Segment.isBlank,
    Text.allBlank, bind, Except.bind]

/-- A bound text of inert lexemes is analysed as itself. -/
private theorem inert_analyzed (clean : IsClean lexemes) (grows : Grows (sourceOf lexemes) bound)
    (kind : lexemes ≠ [] → StatementKind.ofClean (sourceOf lexemes) = .ok found)
    (inert : ∀ lexeme ∈ ofText bound, Inert lexeme) :
    ∃ again, Statement.analyze bound = .ok again ∧ again.markers = [] ∧ again.clean = bound := by
  have source := text_source bound
  by_cases empty : bound = []
  · subst empty
    exact ⟨_, empty_analyzed, rfl, rfl⟩
  have before : lexemes ≠ [] := by
    rintro rfl
    cases grows
    exact empty rfl
  obtain ⟨other, again⟩ := grows_kind grows (kind before)
  have solid := clean_solid clean
  have cleanAgain : IsClean (ofText bound) := by
    refine inert_clean inert (grows_head grows solid.1) fun c last => ?_
    rw [Bool.eq_false_iff]
    intro blank
    have same := solid.2 c (grows_last grows blank last)
    rw [blank] at same
    cases same
  have some : ofText bound ≠ [] := by
    intro nothing
    rw [nothing] at source
    exact empty source.symm
  have analysed := analyze_clean cleanAgain some (source.symm ▸ again)
  have unmarked : markersOf 0 (ofText bound) = [] :=
    no_markers fun member => (inert _ member).unmarked rfl
  rw [source, unmarked] at analysed
  exact ⟨_, analysed, rfl, rfl⟩

/-- The pieces make up what is bound, when every value has a literal. -/
private theorem bound_pieces {statement : Statement} {values : List Param} (clean : IsClean lexemes)
    (text : statement.clean = sourceOf lexemes)
    (markers : statement.markers = Statement.numberMarkers 0 1 (markersOf 0 lexemes))
    (count : values.length = statement.markerCount) (shown : ∀ value ∈ values, ¬ TooDeep value) :
    statement.bindValues? values = some (.ok (textOf (piecesOf lexemes values))) := by
  rw [pieces_text]
  exact bind_values_replaces clean text markers count (rendered_all_iff.mpr ⟨shown, rfl⟩)
    (List.length_map _)

private theorem not_bound_iff {statement : Statement} {values : List Param}
    (count : values.length = statement.markerCount) :
    statement.bindValues? values = none ↔ ∃ value ∈ values, TooDeep value := by
  have rendered : statement.bindValues? values = none ↔ Param.renderAll? values = none := by
    simp [Statement.bindValues?, count]
  rw [rendered, Option.eq_none_iff_forall_ne_some]
  simp only [ne_eq, rendered_all_iff, not_and', forall_eq, not_forall, not_not, exists_prop]

/-- Values are bound unless a decimal below one in them has more places than zeros can fill.
Bound text is analysed as itself, and without markers, unless a dash stands directly before a
negative number. It is cut into the lexemes of its pieces, unless moreover two quoted pieces
stand back to back. -/
theorem bound_text_rescans {values : List Param} (accepted : Statement.analyze sql = .ok statement)
    (count : values.length = statement.markerCount) (plain : ∀ value ∈ values, NoFloat value) :
    let pieces := piecesOf (ofText statement.clean) values
    (statement.bindValues? values = none ↔ ∃ value ∈ values, TooDeep value) ∧
    ((∀ value ∈ values, ¬ TooDeep value) →
      ∃ bound, statement.bindValues? values = some (.ok bound) ∧
        ((∃ again, Statement.analyze bound = .ok again ∧ again.markers = [] ∧
          again.clean = bound) ↔ ¬ DashClash pieces) ∧
        (ofText bound = pieces.flatMap Piece.lexemes ↔
          ¬ DashClash pieces ∧ ¬ QuoteClash pieces)) := by
  intro pieces
  refine ⟨not_bound_iff count, fun shown => ?_⟩
  obtain ⟨lexemes, clean, source, markers, kind⟩ := analyze_statement accepted
  have reads : ofText statement.clean = lexemes := by rw [source, clean_reads clean]
  have offsets : values.length = (markersOf 0 lexemes).length := by
    rw [count, Statement.markerCount, markers, numbered_length]
  have same : pieces = piecesOf lexemes values := by rw [← reads]
  rw [same]
  have suited : Suited (piecesOf lexemes values) :=
    suited_pieces clean.joined clean.settled clean.single plain offsets
  refine ⟨_, bound_pieces clean source markers count shown, ?_, rescan_lexemes suited⟩
  rw [← rescan_inert suited]
  constructor
  · rintro ⟨again, ok, none, same⟩
    exact analyzed_inert ok none same
  · intro inert
    have written : ∀ literal ∈ values.map literalOf, LiteralText literal := by
      intro literal member
      obtain ⟨value, here, rfl⟩ := List.mem_map.mp member
      obtain ⟨c, rest, same, starts, -⟩ := literal_starts (plain value here)
      exact ⟨⟨c, rest, same, starts⟩, literal_stops (plain value here)⟩
    have grows : Grows (sourceOf lexemes) (textOf (piecesOf lexemes values)) := by
      rw [pieces_text]
      exact replaced_grows written
    exact inert_analyzed clean grows (source ▸ kind) inert

/-- A subtraction of a negative number, which its own dash turns into a comment. -/
theorem subtraction_rescans :
    let statement : Statement :=
      ⟨"SELECT 1 -?".toList, "SELECT 1 -?".toList, 0, 11, [⟨1, 10⟩], .query none none⟩
    let values := [Param.int (-5)]
    let pieces := piecesOf (ofText statement.clean) values
    Statement.analyze "SELECT 1 -?".toList = .ok statement ∧
      values.length = statement.markerCount ∧ (∀ value ∈ values, NoFloat value) ∧
      (∀ value ∈ values, ¬ TooDeep value) ∧
      ∃ bound, statement.bindValues? values = some (.ok bound) ∧
        ((∃ again, Statement.analyze bound = .ok again ∧ again.markers = [] ∧
          again.clean = bound) ↔ ¬ DashClash pieces) ∧
        (ofText bound = pieces.flatMap Piece.lexemes ↔
          ¬ DashClash pieces ∧ ¬ QuoteClash pieces) := by
  intro statement values pieces
  have accepted : Statement.analyze "SELECT 1 -?".toList = .ok statement := by cbv
  have plain : ∀ value ∈ values, NoFloat value := by
    intro value member
    cases List.mem_singleton.mp member
    exact .int
  have shown : ∀ value ∈ values, ¬ TooDeep value := by
    rintro value member ⟨d, inside, -⟩
    cases List.mem_singleton.mp member
    cases inside
  exact ⟨accepted, rfl, plain, shown, (bound_text_rescans accepted rfl plain).2 shown⟩

/-- What is read again there is not the text that was bound: the number is gone. -/
theorem subtraction_loses_number :
    ∃ statement bound again, Statement.analyze "SELECT 1 -?".toList = .ok statement ∧
      statement.bindValues? [.int (-5)] = some (.ok bound) ∧
      Statement.analyze bound = .ok again ∧
      bound = "SELECT 1 --5".toList ∧ again.clean = "SELECT 1".toList :=
  ⟨⟨"SELECT 1 -?".toList, "SELECT 1 -?".toList, 0, 11, [⟨1, 10⟩], .query none none⟩,
    "SELECT 1 --5".toList,
    ⟨"SELECT 1 --5".toList, "SELECT 1".toList, 0, 12, [], .query none none⟩,
    by cbv, by cbv, by cbv, rfl, rfl⟩

end SqlWire.Rescan
