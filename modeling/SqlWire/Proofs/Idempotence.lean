import SqlWire.Proofs.Splitting

/-! Cleaning is done once and for all. A clean text is analysed as itself, from its first
byte to its last, and the clean texts of a script with separators between them are a script
of the same statements: no comment is left to be dropped, and no lexeme of one text runs
into the separator behind it, so the lexemes of the joined text are those of its parts. -/
namespace SqlWire.Idempotence
open Lexeme Lexis Cleaning Splitting

/-! ## Statements that are clean -/

/-- A statement as cleaning leaves it: it has some text, in clean lexemes, and the markers
and the kind of that text. -/
structure Cleaned (statement : Statement) : Prop where
  clean : IsClean (ofText statement.clean)
  visible : ofText statement.clean ≠ []
  markers : statement.markers =
    Statement.numberMarkers 0 1 (markersOf 0 (ofText statement.clean))
  kind : StatementKind.ofClean statement.clean = .ok statement.kind

/-- No statement of a script is left without a text. -/
theorem laid_visible (laid : Laid before lexemes statements) :
    ∀ statement ∈ statements, statement.clean ≠ [] := by
  induction laid with
  | none idle => simp
  | cons idle stands apart idleBehind laid last ih =>
    refine List.forall_mem_cons.mpr ⟨fun nothing => ?_, ih⟩
    rw [stands.clean, trim_eq_nil] at nothing
    have blank := List.all_eq_true.mpr nothing
    rw [← Text.allBlank, stands.visible] at blank
    cases blank

private theorem script_cleaned (ok : Script.split sql = .ok script) :
    ∀ statement ∈ script.statements, Cleaned statement := by
  intro statement member
  obtain ⟨lexemes, clean, text, markers, kind⟩ := split_statement ok member
  have reads : ofText statement.clean = lexemes := by rw [text, clean_reads clean]
  refine ⟨reads ▸ clean, fun nothing => ?_, reads ▸ markers, kind⟩
  apply laid_visible (script_laid ok) statement member
  rw [← text_source statement.clean, nothing]
  rfl

/-- The clean text of a statement is analysed as the whole of that statement. -/
theorem cleaned_alone (cleaned : Cleaned statement) :
    Statement.analyze statement.clean =
      .ok ⟨statement.clean, statement.clean, 0, Text.byteLength statement.clean,
        statement.markers, statement.kind⟩ := by
  have source := text_source statement.clean
  have kind := cleaned.kind
  rw [← source] at kind
  have analysed := analyze_clean cleaned.clean cleaned.visible kind
  rwa [source, ← cleaned.markers] at analysed

/-! ## Openers and quotes -/

/-- What begins a comment or ends a statement, outside quotes. -/
def openers : List Text := [['-', '-'], ['/', '*'], [';']]

/-- A place in the text of lexemes that belongs to a closed quote among them. -/
def InQuotes (lexemes : List Lexeme) (place : Nat) : Prop :=
  ∃ before quote behind, lexemes = before ++ quote :: behind ∧
    (∃ body, quote = .string body true ∨ quote = .identifier body true) ∧
    (sourceOf before).length ≤ place ∧
    place < (sourceOf before).length + quote.source.length

private theorem in_quotes_behind (lexeme : Lexeme) (quoted : InQuotes lexemes place) :
    InQuotes (lexeme :: lexemes) (lexeme.source.length + place) := by
  obtain ⟨before, quote, behind, rfl, quotes, least, less⟩ := quoted
  have width : (sourceOf (lexeme :: before)).length =
      lexeme.source.length + (sourceOf before).length := by
    simp [sourceOf]
  exact ⟨lexeme :: before, quote, behind, rfl, quotes, by omega, by omega⟩

/-- No opener begins at a character that is a lexeme of its own. -/
theorem char_no_opener {c : Char} (joined : Joined none (.char c :: lexemes)) (single : c ≠ ';')
    (opens : opener ∈ openers) : c :: sourceOf lexemes ≠ opener ++ rest := by
  obtain ⟨-, ends, -⟩ := joined
  rw [Option.or_none] at ends
  intro same
  simp only [openers, List.mem_cons, List.not_mem_nil, or_false] at opens
  rcases opens with rfl | rfl | rfl
  · obtain ⟨rfl, behind⟩ := List.cons.inj same
    exact ends.1 rfl (by rw [behind]; rfl)
  · obtain ⟨rfl, behind⟩ := List.cons.inj same
    exact ends.2 rfl (by rw [behind]; rfl)
  · exact single (List.cons.inj same).1

/-- Among settled lexemes of one statement, openers stand in quotes only. -/
theorem opener_in_quotes (joined : Joined none lexemes)
    (settled : ∀ lexeme ∈ lexemes, Settled lexeme) (single : separator ∉ lexemes)
    (opens : opener ∈ openers) (parts : sourceOf lexemes = front ++ (opener ++ rest)) :
    InQuotes lexemes front.length := by
  induction lexemes generalizing front with
  | nil =>
    have empty : opener = [] := by
      have none : [] = front ++ (opener ++ rest) := parts
      simp_all
    rw [empty] at opens
    exact absurd opens (by decide)
  | cons lexeme lexemes ih =>
    obtain ⟨here, others⟩ := List.forall_mem_cons.mp settled
    rw [List.mem_cons, not_or] at single
    have cut : sourceOf (lexeme :: lexemes) = lexeme.source ++ sourceOf lexemes := by
      simp [sourceOf]
    rw [cut] at parts
    by_cases inside : front.length < lexeme.source.length
    · have least : (sourceOf []).length ≤ front.length := Nat.zero_le _
      have less : front.length < (sourceOf []).length + lexeme.source.length := by
        simpa [sourceOf] using inside
      cases here with
      | string => exact ⟨[], _, lexemes, rfl, ⟨_, .inl rfl⟩, least, less⟩
      | identifier => exact ⟨[], _, lexemes, rfl, ⟨_, .inr rfl⟩, least, less⟩
      | char =>
        obtain rfl : front = [] := List.length_eq_zero_iff.mp (Nat.lt_one_iff.mp inside)
        rw [List.nil_append] at parts
        refine absurd parts (char_no_opener joined ?_ opens)
        rintro rfl
        exact single.1 rfl
    · obtain ⟨passed, rfl⟩ : lexeme.source <+: front :=
        List.prefix_of_prefix_length_le (List.prefix_append ..) ⟨opener ++ rest, parts.symm⟩
          (Nat.le_of_not_lt inside)
      rw [List.append_assoc, List.append_cancel_left_eq] at parts
      rw [List.length_append]
      exact in_quotes_behind lexeme (ih joined.2.2 others single.2 parts)

/-! ## Joined texts -/

/-- Clean lexemes may stand before a separator. -/
theorem settled_before_separator (joined : Joined none lexemes)
    (settled : ∀ lexeme ∈ lexemes, Settled lexeme) : Joined (some ';') lexemes := by
  refine joined_before joined fun last final => ?_
  cases settled last (List.mem_of_getLast? final) <;> simp [EndsBefore]

/-- Clean lexemes with separators between them are read one after the other. -/
theorem separated_joined (clean : ∀ part ∈ run :: others, IsClean part) :
    Joined none (run ++ separated others) := by
  induction others generalizing run with
  | nil => simpa [separated] using (clean run List.mem_cons_self).joined
  | cons next others ih =>
    obtain ⟨here, behind⟩ := List.forall_mem_cons.mp clean
    rw [separated_cons, joined_append]
    exact ⟨settled_before_separator here.joined here.settled, by simp [separator, Formed],
      by simp [separator, EndsBefore], ih behind⟩

/-- Nothing in clean lexemes, or between them, is left open. -/
theorem separated_closed (clean : ∀ part ∈ run :: others, IsClean part) :
    ∀ lexeme ∈ run ++ separated others, ∀ words, ¬ LeftOpen lexeme words := by
  have settled : ∀ lexeme ∈ run ++ separated others, Settled lexeme := by
    intro lexeme member
    rcases List.mem_append.mp member with here | there
    · exact (clean run List.mem_cons_self).settled lexeme here
    · obtain ⟨part, other, within⟩ := List.mem_flatMap.mp there
      rcases List.mem_cons.mp within with rfl | inside
      · exact .char
      · exact (clean part (List.mem_cons_of_mem _ other)).settled lexeme inside
  intro lexeme member words opened
  have closed := settled lexeme member
  cases opened <;> cases closed

/-- The lexemes of texts, with separators between them, stand for the joined texts. -/
theorem joined_source (text : Text) (others : List Text) :
    sourceOf (ofText text ++ separated (others.map ofText)) =
      Text.joinWith [';'] (text :: others) := by
  induction others generalizing text with
  | nil => simp [separated, text_source, Text.joinWith]
  | cons next others ih =>
    rw [List.map_cons, separated_cons, source_append, text_source, Text.joinWith, ← ih]
    simp [sourceOf, separator, source]

/-- What cleaning finds of a statement. -/
def findings (statement : Statement) : Text × List Marker × StatementKind :=
  (statement.clean, statement.markers, statement.kind)

variable {statements : List Statement}

/-- The segments of clean texts come to the statements these are from. -/
theorem segments_found (cleaned : ∀ statement ∈ statements, Cleaned statement) (start : Nat) :
    ∃ again, Script.ofSegments
        (Segment.ofRuns start (statements.map fun statement => ofText statement.clean)) =
          .ok again ∧
      again.map findings = statements.map findings := by
  induction statements generalizing start with
  | nil => exact ⟨[], rfl, rfl⟩
  | cons statement statements ih =>
    obtain ⟨here, others⟩ := List.forall_mem_cons.mp cleaned
    have source := text_source statement.clean
    have kind := here.kind
    rw [← source] at kind
    obtain ⟨visible, analysed⟩ := segment_clean here.clean here.visible kind start
    obtain ⟨later, rest, same⟩ :=
      ih others ((Segment.ofRun start (ofText statement.clean)).stop + 1)
    rw [source, ← here.markers] at analysed
    rw [List.map_cons, Segment.ofRuns, Script.ofSegments, visible, analysed, rest, List.map_cons,
      ← same]
    simp only [bind, Except.bind, Bool.false_eq_true, ↓reduceIte]
    split
    next empty => exact ⟨_, rfl, by rw [List.isEmpty_iff.mp empty]; rfl⟩
    next => exact ⟨_, rfl, rfl⟩

/-- Clean texts with separators between them are a script of the statements these are
from. -/
theorem joined_splits (cleaned : ∀ statement ∈ statements, Cleaned statement) :
    ∃ again, Script.split (Text.joinWith [';'] (statements.map Statement.clean)) = .ok again ∧
      again.statements.map findings = statements.map findings := by
  cases statements with
  | nil => exact ⟨⟨[]⟩, rfl, rfl⟩
  | cons statement statements =>
    have clean : ∀ part ∈ (statement :: statements).map fun each => ofText each.clean,
        IsClean part := by
      intro part member
      obtain ⟨each, here, rfl⟩ := List.mem_map.mp member
      exact (cleaned each here).clean
    rw [List.map_cons] at clean
    obtain ⟨again, analysed, same⟩ := segments_found cleaned 0
    refine ⟨⟨again⟩, ?_, same⟩
    have source := joined_source statement.clean (statements.map Statement.clean)
    rw [List.map_map] at source
    have scanned := scan_joined (separated_joined clean) (separated_closed clean)
    rw [runs_of_separated fun part member => (clean part member).single] at scanned
    rw [List.map_cons, ← source, Script.split]
    simp only [List.map_cons] at analysed
    simp only [Function.comp_def, scanned, analysed, bind, Except.bind]

/-- Cleaning is idempotent. The clean text of every statement of a script is analysed as
the same statement, with the whole text as its source; comments open and separators stand
only in quotes there; and the clean texts with separators between them are a script of the
same clean texts, markers and kinds. -/
theorem cleaning_is_idempotent (ok : Script.split sql = .ok script) :
    (∀ statement ∈ script.statements,
      Statement.analyze statement.clean =
        .ok ⟨statement.clean, statement.clean, 0, Text.byteLength statement.clean,
          statement.markers, statement.kind⟩ ∧
      (∀ lexeme ∈ ofText statement.clean, Settled lexeme ∧ lexeme ≠ separator) ∧
      ∀ front opener rest, opener ∈ openers → statement.clean = front ++ (opener ++ rest) →
        InQuotes (ofText statement.clean) front.length) ∧
      ∃ again, Script.split (Text.joinWith [';'] (script.statements.map Statement.clean)) =
          .ok again ∧
        again.statements.map findings = script.statements.map findings := by
  have cleaned := script_cleaned ok
  refine ⟨fun statement member => ?_, joined_splits cleaned⟩
  have own := cleaned statement member
  refine ⟨cleaned_alone own, fun lexeme here => ⟨own.clean.settled lexeme here, ?_⟩, ?_⟩
  · rintro rfl
    exact own.clean.single here
  · intro front opener rest opens parts
    rw [← text_source statement.clean] at parts
    exact opener_in_quotes own.clean.joined own.clean.settled own.clean.single opens parts

/-- Two dashes with a comment between them, a comment that hides a separator, and a quote
that keeps one: cleaned once, nothing is left to clean. -/
theorem interleaved_script_is_clean :
    let sql := "select 1 -/**/-?--;\n, ';--' ; set k/*;*/= 'v'".toList
    let first : Statement :=
      ⟨"select 1 -/**/-?--;\n, ';--' ".toList, "select 1 - -?\n, ';--'".toList, 0, 28, [⟨1, 12⟩],
        .query none none⟩
    let second : Statement :=
      ⟨" set k/*;*/= 'v'".toList, "set k = 'v'".toList, 29, 45, [], .setParameter ['k'] ['v']⟩
    Script.split sql = .ok ⟨[first, second]⟩ ∧
      Statement.analyze first.clean =
        .ok ⟨first.clean, first.clean, 0, 21, [⟨1, 12⟩], .query none none⟩ ∧
      InQuotes (ofText first.clean) 17 ∧
      ∃ again, Script.split "select 1 - -?\n, ';--';set k = 'v'".toList = .ok again ∧
        again.statements.map findings = [findings first, findings second] := by
  intro sql first second
  have ok : Script.split sql = .ok ⟨[first, second]⟩ := by decide +kernel
  obtain ⟨each, joined⟩ := cleaning_is_idempotent ok
  obtain ⟨analysed, -, quoted⟩ := each first List.mem_cons_self
  exact ⟨ok, analysed, quoted "select 1 - -?\n, '".toList [';'] "--'".toList (by decide) rfl, joined⟩

end SqlWire.Idempotence
