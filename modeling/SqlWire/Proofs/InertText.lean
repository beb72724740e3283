import SqlWire.Proofs.QuotedText
import SqlWire.Proofs.Splitting

/-! Quoted text is inert. The scan is told here character by character: a mode, the text
that is still ahead, and steps of one or two characters. Lexemes are what such a scan walks
over, so where it is in no quote and in no comment, a quoted literal is walked over as one
lexeme, and what stands behind it is scanned as if nothing stood before. -/
namespace SqlWire.InertText
open Lexeme Lexis Cleaning Splitting

/-- What a scan is in the middle of. -/
inductive Mode where
  | normal
  | string
  | identifier
  | lineComment
  | blockComment
deriving DecidableEq, Repr

/-- A place in a scan: the mode there and the text that is still ahead. -/
structure Place where
  mode : Mode
  ahead : Text
deriving DecidableEq, Repr

/-- The place behind `c`, or behind `c` and the character after it where the two belong
together. -/
def step (c : Char) (rest : Text) : Mode → Place
  | .normal =>
    if c = '\'' then ⟨.string, rest⟩
    else if c = '"' then ⟨.identifier, rest⟩
    else if c = '-' ∧ rest.head? = some '-' then ⟨.lineComment, rest.tail⟩
    else if c = '/' ∧ rest.head? = some '*' then ⟨.blockComment, rest.tail⟩
    else ⟨.normal, rest⟩
  | .string =>
    if c = '\\' then ⟨.string, rest.tail⟩
    else if c = '\'' then
      if rest.head? = some '\'' then ⟨.string, rest.tail⟩ else ⟨.normal, rest⟩
    else ⟨.string, rest⟩
  | .identifier =>
    if c = '"' then
      if rest.head? = some '"' then ⟨.identifier, rest.tail⟩ else ⟨.normal, rest⟩
    else ⟨.identifier, rest⟩
  | .lineComment => if c = '\n' then ⟨.normal, rest⟩ else ⟨.lineComment, rest⟩
  | .blockComment =>
    if c = '*' ∧ rest.head? = some '/' then ⟨.normal, rest.tail⟩ else ⟨.blockComment, rest⟩

/-- The places that a scan comes to, the first one included. -/
inductive Reaches : Place → Place → Prop where
  | here : Reaches place place
  | next : Reaches (step c rest mode) place → Reaches ⟨mode, c :: rest⟩ place

theorem reaches_trans (front : Reaches first middle) (back : Reaches middle last) :
    Reaches first last := by
  induction front with
  | here => exact back
  | next _ ih => exact .next (ih back)

private theorem reaches_end (reached : Reaches ⟨mode, []⟩ place) : place = ⟨mode, []⟩ := by
  cases reached with
  | here => rfl

/-- A scan has one mode at the end of the text. -/
theorem ends_agree (reached : Reaches place ⟨mode, []⟩) (other : Reaches place ⟨again, []⟩) :
    again = mode := by
  generalize final : (⟨mode, []⟩ : Place) = stop at reached
  induction reached with
  | here =>
    subst final
    exact congrArg Place.mode (reaches_end other)
  | next _ ih =>
    cases other with
    | next behind => exact ih behind final

/-! ## Walking over lexemes -/

private theorem string_walk (within : StringInside inside) (rest : Text) :
    Reaches ⟨.string, inside ++ rest⟩ ⟨.string, rest⟩ := by
  induction within with
  | nil => exact .here
  | escaped _ ih => exact .next ih
  | doubled _ ih => exact .next ih
  | plain unescaped unquoted _ ih =>
    apply Reaches.next
    rwa [step, if_neg unescaped, if_neg unquoted]

private theorem string_closes (ends : rest.head? ≠ some '\'') :
    Reaches ⟨.string, '\'' :: rest⟩ ⟨.normal, rest⟩ := by
  apply Reaches.next
  rw [step, if_neg (by decide), if_pos rfl, if_neg ends]
  exact .here

private theorem identifier_walk (within : IdentifierInside inside) (rest : Text) :
    Reaches ⟨.identifier, inside ++ rest⟩ ⟨.identifier, rest⟩ := by
  induction within with
  | nil => exact .here
  | doubled _ ih => exact .next ih
  | plain unquoted _ ih =>
    apply Reaches.next
    rwa [step, if_neg unquoted]

private theorem identifier_closes (ends : rest.head? ≠ some '"') :
    Reaches ⟨.identifier, '"' :: rest⟩ ⟨.normal, rest⟩ := by
  apply Reaches.next
  rw [step, if_pos rfl, if_neg ends]
  exact .here

private theorem line_comment_walk (inside : '\n' ∉ body) (rest : Text) :
    Reaches ⟨.lineComment, body ++ rest⟩ ⟨.lineComment, rest⟩ := by
  induction body with
  | nil => exact .here
  | cons c body ih =>
    rw [List.mem_cons, not_or] at inside
    apply Reaches.next
    rw [step, if_neg (Ne.symm inside.1)]
    exact ih inside.2

/-- Nothing ends a block comment before the first closing. -/
theorem block_comment_walk (never : ¬ closing <:+: body ++ rest.head?.toList) :
    Reaches ⟨.blockComment, body ++ rest⟩ ⟨.blockComment, rest⟩ := by
  induction body with
  | nil => exact .here
  | cons c body ih =>
    have other : ¬ (c = '*' ∧ (body ++ rest).head? = some '/') := by
      rintro ⟨rfl, slash⟩
      apply never
      cases body with
      | nil => exact ⟨[], [], by simp [closing, show rest.head? = some '/' from slash]⟩
      | cons d body =>
        cases Option.some.inj slash
        exact ⟨[], body ++ rest.head?.toList, rfl⟩
    apply Reaches.next
    rw [List.append_eq, step, if_neg other]
    exact ih fun found => never (found.trans (List.suffix_cons ..).isInfix)

/-- The mode behind a lexeme. Behind a line comment the line break is still ahead. -/
def modeBehind : Lexeme → Mode
  | .string _ closed => if closed then .normal else .string
  | .identifier _ closed => if closed then .normal else .identifier
  | .lineComment _ => .lineComment
  | .blockComment body => if closing <:+ body then .normal else .blockComment
  | .char _ => .normal

private theorem block_comment_passed (formed : Formed (.blockComment body))
    (ends : EndsBefore (.blockComment body) rest.head?) :
    Reaches ⟨.blockComment, body ++ rest⟩ ⟨modeBehind (.blockComment body), rest⟩ := by
  rw [modeBehind]
  rcases formed with ⟨inside, rfl, first⟩ | never
  · rw [if_pos (List.suffix_append ..), List.append_assoc]
    apply reaches_trans (block_comment_walk first)
    exact .next .here
  · rcases ends with closed | last
    · exact absurd closed.isInfix never
    · rw [rest_empty last, if_neg fun closed => never closed.isInfix]
      apply block_comment_walk
      simpa using never

/-- A lexeme is walked over from its first character to its last. -/
theorem lexeme_walk (formed : Formed lexeme) (ends : EndsBefore lexeme rest.head?) :
    Reaches ⟨.normal, lexeme.source ++ rest⟩ ⟨modeBehind lexeme, rest⟩ := by
  cases lexeme with
  | string body closed =>
    apply Reaches.next
    cases closed with
    | true =>
      obtain ⟨inside, within, rfl⟩ := formed
      rw [List.append_eq, List.append_assoc]
      exact reaches_trans (string_walk within _) (string_closes ends)
    | false =>
      rw [List.append_eq, rest_empty ends]
      rcases formed with within | ⟨inside, within, rfl⟩
      · exact string_walk within []
      · rw [List.append_nil]
        exact reaches_trans (string_walk within ['\\']) (.next .here)
  | identifier body closed =>
    apply Reaches.next
    cases closed with
    | true =>
      obtain ⟨inside, within, rfl⟩ := formed
      rw [List.append_eq, List.append_assoc]
      exact reaches_trans (identifier_walk within _) (identifier_closes ends)
    | false =>
      rw [List.append_eq, rest_empty ends]
      exact identifier_walk formed []
  | lineComment body =>
    apply Reaches.next
    exact line_comment_walk formed rest
  | blockComment body =>
    apply Reaches.next
    exact block_comment_passed formed ends
  | char c =>
    obtain ⟨dashes, slashes⟩ := ends
    apply Reaches.next
    rw [step, if_neg formed.1, if_neg formed.2, if_neg fun line => dashes line.1 line.2,
      if_neg fun block => slashes block.1 block.2]
    exact .here

/-- Where something stands behind a lexeme, the scan is out of it, or at the end of a line
comment. -/
theorem mode_before (ends : EndsBefore lexeme (some c)) :
    modeBehind lexeme = .normal ∨ modeBehind lexeme = .lineComment ∧ c = '\n' := by
  cases lexeme with
  | string body closed => cases closed <;> simp_all [EndsBefore, modeBehind]
  | identifier body closed => cases closed <;> simp_all [EndsBefore, modeBehind]
  | lineComment body => exact .inr ⟨rfl, by simpa [EndsBefore] using ends⟩
  | blockComment body => exact .inl (by simpa [EndsBefore, modeBehind] using ends)
  | char d => exact .inl rfl

/-- Lexemes that are read one after the other are walked over one after the other. -/
theorem joined_walk {rest : Text} (joined : Joined rest.head? lexemes)
    (starts : mode = .normal ∨
      mode = .lineComment ∧ (sourceOf lexemes ++ rest).head? = some '\n') :
    Reaches ⟨mode, sourceOf lexemes ++ rest⟩
      ⟨(lexemes.getLast?.map modeBehind).getD mode, rest⟩ := by
  induction lexemes generalizing mode with
  | nil => exact .here
  | cons lexeme lexemes ih =>
    obtain ⟨formed, ends, behind⟩ := joined
    rw [← List.head?_append] at ends
    have first : Reaches ⟨mode, sourceOf (lexeme :: lexemes) ++ rest⟩
        ⟨modeBehind lexeme, sourceOf lexemes ++ rest⟩ := by
      rw [sourceOf, List.flatMap_cons, List.append_assoc]
      rcases starts with rfl | ⟨rfl, newline⟩
      · exact lexeme_walk formed ends
      · -- only a character of its own begins with a line break
        cases lexeme with
        | char c =>
          cases Option.some.inj newline
          exact .next .here
        | string | identifier | lineComment | blockComment => cases newline
    cases lexemes with
    | nil => exact first
    | cons other lexemes =>
      rw [List.getLast?_cons_cons]
      obtain ⟨c, next⟩ : ∃ c, (sourceOf (other :: lexemes) ++ rest).head? = some c := by
        cases other <;> exact ⟨_, rfl⟩
      rw [next] at ends
      have again : modeBehind lexeme = .normal ∨ modeBehind lexeme = .lineComment ∧
          (sourceOf (other :: lexemes) ++ rest).head? = some '\n' := by
        rw [next]
        simpa using mode_before ends
      have others := ih behind again
      rw [List.getLast?_cons] at others ⊢
      exact reaches_trans first others

private theorem normal_walk {rest : Text} (joined : Joined rest.head? lexemes) :
    Reaches ⟨.normal, sourceOf lexemes ++ rest⟩
      ⟨(lexemes.getLast?.map modeBehind).getD .normal, rest⟩ :=
  joined_walk joined (.inl rfl)

/-- A text is walked over to its end. -/
theorem text_walk (text : Text) :
    Reaches ⟨.normal, text⟩ ⟨((ofText text).getLast?.map modeBehind).getD .normal, []⟩ := by
  have joined : Joined ([] : Text).head? (ofText text) := text_joined text
  have walk := normal_walk joined
  rwa [text_source, List.append_nil] at walk

/-! ## In front of a literal -/

/-- A quote may stand behind a lexeme that is over and does not end in one. -/
theorem ends_before_quote (formed : Formed lexeme) (outside : modeBehind lexeme = .normal)
    (apart : lexeme.source.getLast? ≠ some '\'') : EndsBefore lexeme (some '\'') := by
  cases lexeme with
  | string body closed =>
    cases closed with
    | true =>
      obtain ⟨inside, -, rfl⟩ := formed
      rw [source, ← List.cons_append, List.getLast?_concat] at apart
      exact absurd rfl apart
    | false => cases outside
  | identifier body closed =>
    cases closed with
    | true => simp [EndsBefore]
    | false => cases outside
  | lineComment body => cases outside
  | blockComment body => exact .inl (by simpa [modeBehind] using outside)
  | char c => simp [EndsBefore]

/-- Behind a quote that nothing closes, the scan is in a quote, and behind nothing else. -/
theorem left_open_iff :
    (∃ words, LeftOpen lexeme words) ↔
      modeBehind lexeme = .string ∨ modeBehind lexeme = .identifier := by
  constructor
  · rintro ⟨words, opened⟩
    cases opened with
    | string => exact .inl rfl
    | identifier => exact .inr rfl
  · intro quoted
    cases lexeme with
    | string body closed =>
      cases closed with
      | true => rcases quoted with string | identifier <;> contradiction
      | false => exact ⟨_, .string⟩
    | identifier body closed =>
      cases closed with
      | true => rcases quoted with string | identifier <;> contradiction
      | false => exact ⟨_, .identifier⟩
    | lineComment body => rcases quoted with string | identifier <;> contradiction
    | blockComment body =>
      rw [modeBehind] at quoted
      split at quoted <;> rcases quoted with string | identifier <;> contradiction
    | char c => rcases quoted with string | identifier <;> contradiction

/-- A script cannot be scanned just when the scan of it ends in a quote. -/
theorem scan_fails_iff (script : Text) :
    (∃ error, Segment.scan script = .error error) ↔
      Reaches ⟨.normal, script⟩ ⟨.string, []⟩ ∨ Reaches ⟨.normal, script⟩ ⟨.identifier, []⟩ := by
  have walk := text_walk script
  constructor
  · rintro ⟨error, fails⟩
    have found : openQuote? 0 (ofText script) = some error := by
      rw [Segment.scan] at fails
      cases found : openQuote? 0 (ofText script) with
      | some other =>
        rw [found] at fails
        exact congrArg some (Except.error.inj fails)
      | none =>
        rw [found] at fails
        cases fails
    obtain ⟨before, last, lexemes, opened, -⟩ := open_quote_last (text_cut script) found
    rw [lexemes, List.getLast?_concat] at walk
    refine (left_open_iff.mp ⟨_, opened⟩).imp (fun string => ?_) fun identifier => ?_
    · rwa [← string]
    · rwa [← identifier]
  · intro quoted
    have ends : ((ofText script).getLast?.map modeBehind).getD .normal = .string ∨
        ((ofText script).getLast?.map modeBehind).getD .normal = .identifier :=
      quoted.imp (fun string => ends_agree string walk) fun identifier =>
        ends_agree identifier walk
    cases final : (ofText script).getLast? with
    | none =>
      rw [final] at ends
      rcases ends with string | identifier <;> contradiction
    | some last =>
      rw [final] at ends
      obtain ⟨words, opened⟩ := left_open_iff.mpr ends
      cases found : openQuote? 0 (ofText script) with
      | some error => exact ⟨error, by rw [Segment.scan, found]⟩
      | none =>
        exact absurd opened (open_quote_none found last (List.mem_of_getLast? final) words)

/-- The scan is through with a text just when it is through with the last lexeme of it. -/
theorem leaves_iff (text : Text) :
    Reaches ⟨.normal, text⟩ ⟨.normal, []⟩ ↔
      ∀ last ∈ (ofText text).getLast?, modeBehind last = .normal := by
  have walk := text_walk text
  constructor
  · intro leaves last final
    rw [final] at walk
    exact ends_agree leaves walk
  · intro outside
    cases final : (ofText text).getLast? with
    | none => rwa [final] at walk
    | some last =>
      rw [final] at walk
      rwa [Option.map_some, Option.getD_some, outside last final] at walk

section Front
variable {front : Text} (leaves : Reaches ⟨.normal, front⟩ ⟨.normal, []⟩)
include leaves

/-- No quote is open where the scan is through. -/
theorem front_closed : openQuote? 0 (ofText front) = none := by
  cases found : openQuote? 0 (ofText front) with
  | none => rfl
  | some error =>
    obtain ⟨before, last, lexemes, opened, -⟩ := open_quote_last (text_cut front) found
    have outside : modeBehind last = .normal := by
      apply (leaves_iff front).mp leaves
      rw [lexemes, List.getLast?_concat]
      exact rfl
    rcases left_open_iff.mp ⟨_, opened⟩ with same | same <;> rw [outside] at same <;> cases same

/-- A quote may stand behind a text that the scan is through with. -/
theorem front_joined (apart : front.getLast? ≠ some '\'') :
    Joined (some '\'') (ofText front) := by
  refine joined_before (text_joined front) fun last final => ?_
  have formed := joined_formed (text_joined front) last (List.mem_of_getLast? final)
  refine ends_before_quote formed ((leaves_iff front).mp leaves last final) fun quote => apart ?_
  obtain ⟨init, lexemes⟩ := List.getLast?_eq_some_iff.mp final
  rw [← text_source front, lexemes, source_stops, quote]

end Front

/-! ## Inside a literal -/

private theorem ahead_longer (front : Text) (c : Char) (rest : Text) :
    rest.length < (front ++ c :: rest).length := by
  rw [List.length_append, List.length_cons]
  omega

/-- Up to its closing quote, the scan does not leave a string. -/
theorem string_places (within : StringInside inside) (ends : rest.head? ≠ some '\'')
    (reached : Reaches ⟨.string, inside ++ '\'' :: rest⟩ place) :
    place.mode = .string ∧ rest.length < place.ahead.length ∨ Reaches ⟨.normal, rest⟩ place := by
  induction within with
  | nil =>
    cases reached with
    | here => exact .inl ⟨rfl, ahead_longer [] '\'' rest⟩
    | next behind =>
      rw [step, if_neg (by decide), if_pos rfl, if_neg ends] at behind
      exact .inr behind
  | escaped _ ih =>
    cases reached with
    | here => exact .inl ⟨rfl, ahead_longer _ '\'' rest⟩
    | next behind => exact ih behind
  | doubled _ ih =>
    cases reached with
    | here => exact .inl ⟨rfl, ahead_longer _ '\'' rest⟩
    | next behind => exact ih behind
  | plain unescaped unquoted _ ih =>
    cases reached with
    | here => exact .inl ⟨rfl, ahead_longer _ '\'' rest⟩
    | next behind =>
      rw [step, if_neg unescaped, if_neg unquoted] at behind
      exact ih behind

/-- From its opening quote to its closing one, a quoted text is scanned as a string. -/
theorem literal_places (text : Text) (ends : rest.head? ≠ some '\'')
    (reached : Reaches ⟨.normal, Text.quote text ++ rest⟩ place) :
    place = ⟨.normal, Text.quote text ++ rest⟩ ∨
      (place.mode = .string ∧ rest.length < place.ahead.length) ∨
        Reaches ⟨.normal, rest⟩ place := by
  cases reached with
  | here => exact .inl rfl
  | next behind =>
    have within : Reaches ⟨.string, Text.quoteBody text ++ '\'' :: rest⟩ place := by
      simpa [step] using behind
    exact .inr (string_places (QuotedText.quote_body_inside text) ends within)

/-! ## Lexemes and segments -/

/-- The lexeme of a quoted text. -/
def literal (text : Text) : Lexeme := .string (Text.quoteBody text ++ ['\'']) true

private theorem literal_formed (text : Text) : Formed (literal text) :=
  ⟨_, QuotedText.quote_body_inside text, rfl⟩

/-- Behind what a quote may stand behind, a quoted text is a lexeme of its own. -/
theorem literal_reads (joined : Joined (some '\'') lexemes) (ends : rest.head? ≠ some '\'')
    (text : Text) :
    ofText (sourceOf lexemes ++ (Text.quote text ++ rest)) =
      lexemes ++ literal text :: ofText rest := by
  have opens : Joined (Text.quote text ++ rest).head? lexemes := joined
  rw [joined_reads opens]
  exact congrArg _ (source_reads (literal_formed text) ends)

/-- A fault with more text in front. -/
def movedError (width : Nat) (error : ScriptError) : ScriptError :=
  { error with position := width + error.position }

/-- A segment with more text in front. -/
def movedSegment (width : Nat) (segment : Segment) : Segment :=
  { segment with start := width + segment.start }

/-- One segment of two, with a text between them. -/
def joinedSegment (front : Segment) (text : Text) (back : Segment) : Segment where
  start := front.start
  source := front.source ++ text ++ back.source
  clean := front.clean ++ text ++ back.clean
  markers := front.markers ++ back.markers.map ((front.clean ++ text).length + ·)

private theorem open_quote_moved (width offset : Nat) (lexemes : List Lexeme) :
    openQuote? (width + offset) lexemes = (openQuote? offset lexemes).map (movedError width) := by
  induction lexemes generalizing offset with
  | nil => rfl
  | cons lexeme lexemes ih =>
    by_cases opened : ∃ words, LeftOpen lexeme words
    · obtain ⟨words, opened⟩ := opened
      cases opened <;> rfl
    · have settled := fun words here => opened ⟨words, here⟩
      rw [open_quote_skips settled, open_quote_skips settled, Nat.add_assoc, ih]

private theorem open_quote_behind (closed : openQuote? offset front = none) (back : List Lexeme) :
    openQuote? offset (front ++ back) =
      openQuote? (offset + Text.byteLength (sourceOf front)) back := by
  induction front generalizing offset with
  | nil => rfl
  | cons lexeme front ih =>
    have settled := open_quote_none closed lexeme List.mem_cons_self
    rw [open_quote_skips settled] at closed
    rw [List.cons_append, open_quote_skips settled, ih closed]
    simp [sourceOf, Nat.add_assoc]

private theorem runs_cons (lexeme : Lexeme) (lexemes : List Lexeme) :
    runs (lexeme :: lexemes) =
      if lexeme.isSeparator then [] :: runs lexemes
      else (runs lexemes).modifyHead (lexeme :: ·) := by
  cases split : runsFrom lexemes with
  | mk first others =>
    rw [runs, runs, runsFrom, split]
    by_cases separates : lexeme.isSeparator
    · simp only [if_pos separates]
    · simp only [if_neg separates, List.modifyHead_cons]

/-- The last run in front and the first run behind become one. -/
theorem runs_meet (front : List Lexeme) :
    ∃ init last, runs front = init ++ [last] ∧ ∀ back first others,
      runs back = first :: others → runs (front ++ back) = init ++ (last ++ first) :: others := by
  induction front with
  | nil => exact ⟨[], [], rfl, fun back first others same => same⟩
  | cons lexeme front ih =>
    obtain ⟨init, last, alone, meets⟩ := ih
    rw [runs_cons, alone]
    by_cases separates : lexeme.isSeparator
    · refine ⟨[] :: init, last, by rw [if_pos separates]; rfl, fun back first others same => ?_⟩
      rw [List.cons_append, runs_cons, if_pos separates, meets back first others same]
      rfl
    · rw [if_neg separates]
      cases init with
      | nil =>
        refine ⟨[], lexeme :: last, rfl, fun back first others same => ?_⟩
        rw [List.cons_append, runs_cons, if_neg separates, meets back first others same]
        rfl
      | cons run init =>
        refine ⟨(lexeme :: run) :: init, last, rfl, fun back first others same => ?_⟩
        rw [List.cons_append, runs_cons, if_neg separates, meets back first others same]
        rfl

theorem markers_moved (width base : Nat) (run : List Lexeme) :
    markersOf (width + base) run = (markersOf base run).map (width + ·) := by
  induction run generalizing base with
  | nil => rfl
  | cons lexeme run ih =>
    rw [markersOf, markersOf, Nat.add_assoc, ih]
    split <;> rfl

private theorem segments_moved (width start : Nat) (runs : List (List Lexeme)) :
    Segment.ofRuns (width + start) runs =
      (Segment.ofRuns start runs).map (movedSegment width) := by
  induction runs generalizing start with
  | nil => rfl
  | cons run runs ih =>
    have stop : (Segment.ofRun (width + start) run).stop + 1 =
        width + ((Segment.ofRun start run).stop + 1) := by
      simp only [Segment.stop, Segment.ofRun]
      omega
    rw [Segment.ofRuns, Segment.ofRuns, List.map_cons, stop, ih]
    rfl

private theorem segments_append (start : Nat) (init : List (List Lexeme)) :
    ∃ place, ∀ others, Segment.ofRuns start (init ++ others) =
      Segment.ofRuns start init ++ Segment.ofRuns place others := by
  induction init generalizing start with
  | nil => exact ⟨start, fun others => rfl⟩
  | cons run init ih =>
    obtain ⟨place, follows⟩ := ih ((Segment.ofRun start run).stop + 1)
    refine ⟨place, fun others => ?_⟩
    rw [List.cons_append, Segment.ofRuns, follows others]
    rfl

/-- The segment of a run with a literal in it. -/
theorem literal_segment (place : Nat) (front : List Lexeme) (text : Text) (back : List Lexeme) :
    Segment.ofRun place (front ++ literal text :: back) =
      joinedSegment (Segment.ofRun place front) (Text.quote text) (Segment.ofRun 0 back) := by
  have source : ∀ front back, sourceOf (front ++ literal text :: back) =
      sourceOf front ++ Text.quote text ++ sourceOf back := by
    intro front back
    rw [source_append, List.append_assoc]
    rfl
  have clean : cleanOf (front ++ literal text :: back) =
      cleanOf front ++ Text.quote text ++ cleanOf back := by
    rw [cleanOf, List.flatMap_append, List.append_assoc]
    rfl
  have markers : markersOf 0 (front ++ literal text :: back) =
      markersOf 0 front ++
        (markersOf 0 back).map ((cleanOf front ++ Text.quote text).length + ·) := by
    have behind : markersOf (0 + (cleanOf front).length) (literal text :: back) =
        markersOf ((cleanOf front ++ Text.quote text).length + 0) back := by
      rw [List.length_append, Nat.zero_add, Nat.add_zero]
      rfl
    rw [markers_append, behind, markers_moved]
  rw [Segment.ofRun, source, clean, markers]
  rfl

private theorem literal_settled (text : Text) : ∀ words, ¬ LeftOpen (literal text) words := by
  intro words opened
  cases opened

/-- A literal behind closed lexemes leaves the quotes behind it as open as they are. -/
theorem literal_open (closed : openQuote? 0 front = none) (text : Text) (back : List Lexeme) :
    openQuote? 0 (front ++ literal text :: back) =
      (openQuote? 0 back).map
        (movedError (Text.byteLength (sourceOf front ++ Text.quote text))) := by
  rw [open_quote_behind closed, open_quote_skips (literal_settled text), ← open_quote_moved,
    Nat.zero_add, Nat.add_zero, Text.byteLength_append]
  rfl

/-- The last segment of lexemes ends where they end. -/
theorem last_stop (lexemes : List Lexeme) :
    (Segment.ofRuns 0 (runs lexemes)).getLast?.map Segment.stop =
      some (Text.byteLength (sourceOf lexemes)) := by
  have joined := runs_joined lexemes
  cases parts : runs lexemes with
  | nil => cases parts
  | cons run others =>
    rw [parts, intercalate_separated] at joined
    rw [segments_stop, joined, Nat.zero_add]

/-- Only the segment that a literal stands in is another one for it, and those behind it
have moved. -/
theorem literal_segments (front : List Lexeme) (text : Text) (back : List Lexeme) :
    ∃ before last first behind, Segment.ofRuns 0 (runs front) = before ++ [last] ∧
      Segment.ofRuns 0 (runs back) = first :: behind ∧
      Segment.ofRuns 0 (runs (front ++ literal text :: back)) =
        before ++ joinedSegment last (Text.quote text) first ::
          behind.map (movedSegment (Text.byteLength (sourceOf front ++ Text.quote text))) := by
  obtain ⟨init, last, alone, meets⟩ := runs_meet front
  obtain ⟨place, follows⟩ := segments_append 0 init
  have single : Segment.ofRuns 0 (runs front) =
      Segment.ofRuns 0 init ++ [Segment.ofRun place last] := by
    rw [alone, follows]
    rfl
  have stop : (Segment.ofRun place last).stop = Text.byteLength (sourceOf front) := by
    have ends := last_stop front
    rw [single, List.getLast?_concat] at ends
    exact Option.some.inj ends
  obtain ⟨first, others, parts⟩ : ∃ first others, runs back = first :: others := ⟨_, _, rfl⟩
  have whole : runs (front ++ literal text :: back) =
      init ++ (last ++ literal text :: first) :: others := by
    apply meets
    rw [runs_cons, parts]
    rfl
  have next : (Segment.ofRun place (last ++ literal text :: first)).stop + 1 =
      Text.byteLength (sourceOf front ++ Text.quote text) +
        ((Segment.ofRun 0 first).stop + 1) := by
    rw [Text.byteLength_append, ← stop, literal_segment]
    simp only [Segment.stop, joinedSegment, Segment.ofRun, Text.byteLength_append]
    omega
  refine ⟨Segment.ofRuns 0 init, Segment.ofRun place last, Segment.ofRun 0 first,
    Segment.ofRuns ((Segment.ofRun 0 first).stop + 1) others, single, ?_, ?_⟩
  · rw [parts]
    rfl
  · rw [whole, follows, Segment.ofRuns, next, segments_moved, literal_segment]

/-- A quoted text is inert. The scan of a text is to be through with `front`, which does not
end in a quote, and `rest` is not to begin with one. Then the scan of the two with a quoted
text between them comes to that text and behind it to `rest` outside of quotes and comments,
and is in a string at all places between. The segment that `front` ends in goes on with the
quoted text as it stands and with the first segment of `rest`; it has the markers of the
two. All other segments are those of `front` and of `rest`, and a fault is that of `rest`. -/
theorem quoted_text_is_inert (text : Text) (leaves : Reaches ⟨.normal, front⟩ ⟨.normal, []⟩)
    (apart : front.getLast? ≠ some '\'') (ends : rest.head? ≠ some '\'') :
    Reaches ⟨.normal, front ++ (Text.quote text ++ rest)⟩ ⟨.normal, Text.quote text ++ rest⟩ ∧
    Reaches ⟨.normal, Text.quote text ++ rest⟩ ⟨.normal, rest⟩ ∧
    (∀ place, Reaches ⟨.normal, Text.quote text ++ rest⟩ place →
      place = ⟨.normal, Text.quote text ++ rest⟩ ∨
        (place.mode = .string ∧ rest.length < place.ahead.length) ∨
          Reaches ⟨.normal, rest⟩ place) ∧
    ∃ before last, Segment.scan front = .ok (before ++ [last]) ∧
      ((∃ error, Segment.scan rest = .error error ∧
          Segment.scan (front ++ (Text.quote text ++ rest)) =
            .error (movedError (Text.byteLength (front ++ Text.quote text)) error)) ∨
        ∃ first behind, Segment.scan rest = .ok (first :: behind) ∧
          Segment.scan (front ++ (Text.quote text ++ rest)) =
            .ok (before ++ joinedSegment last (Text.quote text) first ::
              behind.map (movedSegment (Text.byteLength (front ++ Text.quote text))))) := by
  have joined := front_joined leaves apart
  have reads := literal_reads joined ends text
  have opens : Joined (Text.quote text ++ rest).head? (ofText front) := joined
  have walk := normal_walk opens
  rw [text_source, ends_agree leaves (text_walk front)] at walk
  rw [text_source] at reads
  have closed := front_closed leaves
  have opened := literal_open closed text (ofText rest)
  obtain ⟨before, last, first, behind, segments, others, whole⟩ :=
    literal_segments (ofText front) text (ofText rest)
  rw [text_source, ← reads] at opened whole
  refine ⟨walk, lexeme_walk (literal_formed text) ends,
    fun place reached => literal_places text ends reached, before, last, ?_, ?_⟩
  · rw [Segment.scan, closed, segments]
  · rw [Segment.scan, Segment.scan, opened, whole, others]
    cases openQuote? 0 (ofText rest) with
    | some error => exact .inl ⟨error, rfl, rfl⟩
    | none => exact .inr ⟨first, behind, rfl, rfl⟩

/-- A literal with everything in it that opens, closes, marks or separates elsewhere. -/
theorem hostile_text_is_inert :
    let front := "a;?=".toList
    let text := "'\\;?--/*\"".toList
    let rest := ",?;b".toList
    let middle := "?='\\'\\\\;?--/*\"',?".toList
    Reaches ⟨.normal, front⟩ ⟨.normal, []⟩ ∧ front.getLast? ≠ some '\'' ∧
      rest.head? ≠ some '\'' ∧
      Reaches ⟨.normal, front ++ (Text.quote text ++ rest)⟩ ⟨.normal, rest⟩ ∧
      Segment.scan (front ++ (Text.quote text ++ rest)) =
        .ok [⟨0, ['a'], ['a'], []⟩, ⟨2, middle, middle, [0, 16]⟩, ⟨20, ['b'], ['b'], []⟩] := by
  intro front text rest middle
  have leaves : Reaches ⟨.normal, front⟩ ⟨.normal, []⟩ := .next (.next (.next (.next .here)))
  have apart : front.getLast? ≠ some '\'' := by decide
  have ends : rest.head? ≠ some '\'' := by decide
  obtain ⟨comes, through, -, before, last, alone, result⟩ :=
    quoted_text_is_inert text leaves apart ends
  refine ⟨leaves, apart, ends, reaches_trans comes through, ?_⟩
  have first : Segment.scan front =
      .ok ([⟨0, ['a'], ['a'], []⟩] ++ [⟨2, ['?', '='], ['?', '='], [0]⟩]) := by decide +kernel
  have behind : Segment.scan rest =
      .ok [⟨0, [',', '?'], [',', '?'], [1]⟩, ⟨3, ['b'], ['b'], []⟩] := by decide +kernel
  rw [first] at alone
  obtain ⟨rfl, ends⟩ := List.append_inj' (Except.ok.inj alone) rfl
  cases ends
  rcases result with ⟨error, fails, -⟩ | ⟨next, others, scanned, whole⟩
  · rw [behind] at fails
    cases fails
  · rw [behind] at scanned
    cases scanned
    rw [whole]
    rfl

end SqlWire.InertText
