import SqlWire.Proofs.InertText
import SqlWire.Proofs.KeywordSearch

/-! The table a query reads, when its name is quoted. Three readers come over such a name:
the scan, the search for the word `FROM`, and the reader of names. Behind a select list that
the scan is through with, and that has no such word outside quotes, they agree on every list
of names, whatever characters are in them. -/
namespace SqlWire.QueryTargets
open Target Lexeme Lexis Cleaning Splitting InertText KeywordSearch TypeCase

/-! ## Quoted names -/

/-- What stands between the quotes of a name: its quotes doubled. -/
def doubled : Text → Text
  | [] => []
  | c :: name => if c = '"' then '"' :: '"' :: doubled name else c :: doubled name

/-- A name in double quotes. -/
def quoteName (name : Text) : Text := '"' :: (doubled name ++ ['"'])

/-- Quoted names with dots between them. -/
def dotted (names : List Text) : Text := Text.joinWith ['.'] (names.map quoteName)

/-- Database and table of a dotted name: of several names the first two, and a name alone is
that of a table. -/
def named : List Text → Option Text × Option Text
  | [] => (none, none)
  | [table] => (none, some table)
  | database :: table :: _ => (some database, some table)

private theorem doubled_inside (name : Text) : IdentifierInside (doubled name) := by
  induction name with
  | nil => exact .nil
  | cons c name ih =>
    rw [doubled]
    split
    · exact .doubled ih
    next other => exact .plain other ih

/-- A quoted name is read up to the quote that ends it. -/
theorem quoted_name_reads (ends : after.head? ≠ some '"') (name : Text) :
    quotedName (doubled name ++ '"' :: after) = (name, after) := by
  induction name with
  | nil =>
    cases after with
    | nil => rfl
    | cons c after =>
      have other : c ≠ '"' := fun same => ends (congrArg some same)
      rw [doubled, List.nil_append, quotedName, if_pos rfl, if_neg other]
  | cons c name ih =>
    rw [doubled]
    split
    next quote =>
      rw [List.cons_append, List.cons_append, quotedName, if_pos rfl, if_pos rfl, ih, quote]
    next other =>
      rw [List.cons_append]
      cases behind : doubled name ++ '"' :: after with
      | nil => simp at behind
      | cons d rest =>
        rw [behind] at ih
        rw [quotedName, if_neg other, ih]

private theorem next_name_reads (ends : after.head? ≠ some '"') (name : Text) :
    nextName (quoteName name ++ after) = (name, after) := by
  rw [quoteName, List.cons_append, List.append_assoc, nextName]
  exact quoted_name_reads ends name

/-- What stands behind the first of some quoted names. -/
def behindName : List Text → Text
  | [] => []
  | names => '.' :: dotted names

private theorem dotted_cons (name : Text) (others : List Text) :
    dotted (name :: others) = quoteName name ++ behindName others := by
  cases others with
  | nil => simp [dotted, behindName, Text.joinWith]
  | cons next others => simp [dotted, behindName, Text.joinWith]

private theorem first_name_reads (name : Text) (others : List Text) :
    nextName (dotted (name :: others)) = (name, behindName others) := by
  rw [dotted_cons]
  apply next_name_reads
  cases others <;> simp [behindName]

/-- The parts of a dotted name are read as they were before they were quoted. -/
theorem dotted_name_reads (each : ∀ name ∈ names, name ≠ []) :
    dottedName (dotted names) = (names.head?, names.tail.head?) := by
  match names with
  | [] => rfl
  | [table] =>
    have some : table.isEmpty = false := by simpa using each
    rw [dottedName, first_name_reads]
    simp [some, behindName]
  | database :: table :: others =>
    have some : database.isEmpty = false ∧ table.isEmpty = false := by
      simp_all
    rw [dottedName, first_name_reads]
    simp [some, behindName, first_name_reads]

/-! ## Lexemes -/

/-- The lexeme of a quoted name. -/
def nameLexeme (name : Text) : Lexeme := .identifier (doubled name ++ ['"']) true

/-- The lexemes of quoted names with dots between them. -/
def dottedLexemes : List Text → List Lexeme
  | [] => []
  | [last] => [nameLexeme last]
  | name :: next :: others => nameLexeme name :: .char '.' :: dottedLexemes (next :: others)

private theorem dotted_source (names : List Text) :
    sourceOf (dottedLexemes names) = dotted names := by
  fun_induction dottedLexemes names with
  | case1 => rfl
  | case2 last => simp [sourceOf, nameLexeme, source, dotted, Text.joinWith, quoteName]
  | case3 name next others ih =>
    rw [source_cons, source_cons, ih, dotted_cons name]
    rfl

private theorem dotted_joined (names : List Text) : Joined none (dottedLexemes names) := by
  have formed : ∀ name, Formed (nameLexeme name) := fun name =>
    ⟨doubled name, doubled_inside name, rfl⟩
  fun_induction dottedLexemes names with
  | case1 => trivial
  | case2 last => exact ⟨formed last, by simp [sourceOf, nameLexeme, EndsBefore], trivial⟩
  | case3 name next others ih =>
    refine ⟨formed name, ?_, ?_, ?_, ih⟩
    · simp [sourceOf, nameLexeme, source, EndsBefore]
    · simp [Formed]
    · simp [EndsBefore]

private theorem dotted_mem (member : lexeme ∈ dottedLexemes names) :
    lexeme = .char '.' ∨ ∃ name, lexeme = nameLexeme name := by
  fun_induction dottedLexemes names with
  | case1 => cases member
  | case2 last => exact .inr ⟨last, List.mem_singleton.mp member⟩
  | case3 name next others ih =>
    rcases List.mem_cons.mp member with rfl | member
    · exact .inr ⟨name, rfl⟩
    · rcases List.mem_cons.mp member with rfl | member
      · exact .inl rfl
      · exact ih member

private theorem dotted_last {names : List Text} (filled : names ≠ []) :
    ∃ init name, dottedLexemes names = init ++ [nameLexeme name] := by
  fun_induction dottedLexemes names with
  | case1 => exact absurd rfl filled
  | case2 last => exact ⟨[], last, rfl⟩
  | case3 name next others ih =>
    obtain ⟨init, last, ends⟩ := ih (by simp)
    exact ⟨nameLexeme name :: .char '.' :: init, last, by rw [ends]; rfl⟩

private theorem dotted_settled : ∀ lexeme ∈ dottedLexemes names, Settled lexeme := by
  intro lexeme member
  rcases dotted_mem member with rfl | ⟨name, rfl⟩
  · exact .char
  · exact .identifier

private theorem dotted_without (other : c ≠ '.') : .char c ∉ dottedLexemes names := by
  intro member
  rcases dotted_mem member with same | ⟨name, same⟩
  · exact other (Lexeme.char.inj same)
  · cases same

/-! ## Queries -/

def selectWord : Text := "SELECT".toList

def fromWord : Text := "FROM".toList

/-- A query of a select list and a quoted name. -/
def query (select : Text) (names : List Text) : Text :=
  selectWord ++ ' ' :: (select ++ ' ' :: (fromWord ++ ' ' :: dotted names))

/-- The lexemes of a query around those of its select list. -/
def queryLexemes (list : List Lexeme) (names : List Text) : List Lexeme :=
  selectWord.map .char ++ .char ' ' ::
    (list ++ .char ' ' :: (fromWord.map .char ++ .char ' ' :: dottedLexemes names))

private theorem query_source (list : List Lexeme) (names : List Text) :
    sourceOf (queryLexemes list names) = query (sourceOf list) names := by
  simp only [queryLexemes, query, source_append, source_cons, source_chars, dotted_source, source,
    List.singleton_append]

/-- A blank may stand anywhere between lexemes. -/
theorem blank_joined (before : Joined (some ' ') front) (behind : Joined next back) :
    Joined next (front ++ .char ' ' :: back) := by
  refine joined_append.mpr ⟨?_, by simp [Formed], by simp [EndsBefore], behind⟩
  rwa [source_cons]

private theorem query_joined (joined : Joined (some ' ') list) (names : List Text) :
    Joined none (queryLexemes list names) :=
  blank_joined (plain_joined (by simp [selectWord]) _) (blank_joined joined
    (blank_joined (plain_joined (by simp [fromWord]) _) (dotted_joined names)))

/-- Around its select list, a query has nothing but settled lexemes that do not separate. -/
theorem query_mem (member : lexeme ∈ queryLexemes list names) :
    lexeme ∈ list ∨ Settled lexeme ∧ lexeme ≠ separator := by
  have word : ∀ {text : Text}, ';' ∉ text → lexeme ∈ text.map Lexeme.char →
      Settled lexeme ∧ lexeme ≠ separator := by
    rintro text other member
    obtain ⟨c, inside, rfl⟩ := List.mem_map.mp member
    exact ⟨.char, fun same => other (Lexeme.char.inj same ▸ inside)⟩
  have name : lexeme ∈ dottedLexemes names → Settled lexeme ∧ lexeme ≠ separator := by
    intro member
    refine ⟨dotted_settled lexeme member, ?_⟩
    rintro rfl
    exact dotted_without (by decide) member
  have blank : lexeme = .char ' ' → Settled lexeme ∧ lexeme ≠ separator := by
    rintro rfl
    exact ⟨.char, by decide⟩
  simp only [queryLexemes, List.mem_append, List.mem_cons] at member
  rcases member with select | gap | inside | gap | from' | gap | table
  · exact .inr (word (by decide) select)
  · exact .inr (blank gap)
  · exact .inl inside
  · exact .inr (blank gap)
  · exact .inr (word (by decide) from')
  · exact .inr (blank gap)
  · exact .inr (name table)

private theorem query_closed (closed : ∀ lexeme ∈ list, ∀ words, ¬ LeftOpen lexeme words) :
    ∀ lexeme ∈ queryLexemes list names, ∀ words, ¬ LeftOpen lexeme words := by
  intro lexeme member words opened
  rcases query_mem member with inside | ⟨settled, -⟩
  · exact closed lexeme inside words opened
  · cases opened <;> cases settled

private theorem query_single (single : separator ∉ list) : separator ∉ queryLexemes list names :=
  fun member => (query_mem member).elim single fun other => other.2 rfl

private theorem query_settled (settled : ∀ lexeme ∈ list, Settled lexeme) :
    ∀ lexeme ∈ queryLexemes list names, Settled lexeme := fun lexeme member =>
  (query_mem member).elim (settled lexeme) And.left

private theorem query_settle (list : List Lexeme) (names : List Text) :
    (queryLexemes list names).flatMap settle = queryLexemes (list.flatMap settle) names := by
  have word : ∀ text : Text, (text.map Lexeme.char).flatMap settle = text.map .char := by
    intro text
    apply settled_kept
    intro lexeme member
    obtain ⟨c, -, rfl⟩ := List.mem_map.mp member
    exact .char
  simp only [queryLexemes, List.flatMap_append, List.flatMap_cons, word,
    settled_kept dotted_settled, settle, List.singleton_append]

/-- The markers of a query are those of its select list. -/
theorem query_markers (list : List Lexeme) (names : List Text) :
    markersOf 0 (queryLexemes list names) = (markersOf 0 list).map (7 + ·) := by
  have select : .char '?' ∉ selectWord.map Lexeme.char ++ [.char ' '] := by decide
  have behind : .char '?' ∉
      .char ' ' :: (fromWord.map .char ++ .char ' ' :: dottedLexemes names) := by
    rw [List.mem_cons, List.mem_append, List.mem_cons, not_or, not_or, not_or]
    exact ⟨by decide, by decide, by decide, dotted_without (by decide)⟩
  have width : (cleanOf (selectWord.map .char ++ [.char ' '])).length = 7 := by decide
  have split : queryLexemes list names = (selectWord.map .char ++ [.char ' ']) ++
      (list ++ .char ' ' :: (fromWord.map .char ++ .char ' ' :: dottedLexemes names)) := by
    simp [queryLexemes]
  generalize selectWord.map Lexeme.char ++ [.char ' '] = front at select width split
  rw [split, markers_append, markers_append, no_markers select, no_markers behind, width,
    List.nil_append, List.append_nil, Nat.zero_add]
  exact markers_moved 7 0 list

/-! ## What the query reads -/

private theorem kind_of_query (rest : Text) :
    StatementKind.ofClean (selectWord ++ ' ' :: rest) =
      .ok (.query (ofQuery (selectWord ++ ' ' :: rest)).1
        (ofQuery (selectWord ++ ' ' :: rest)).2) :=
  rfl

private theorem dotted_trimmed (names : List Text) :
    Text.trimStart (' ' :: dotted names) = dotted names := by
  cases names with
  | nil => rfl
  | cons name others =>
    rw [dotted_cons, quoteName]
    rfl

/-- The word `FROM` that stands behind a select list without it is the first of a query. -/
theorem query_target {list : List Lexeme} {names : List Text}
    (settled : ∀ lexeme ∈ list, Settled lexeme) (joined : Joined (some ' ') list)
    (wordless : Wordless "from".toList list) (each : ∀ name ∈ names, name ≠ []) :
    ofQuery (query (sourceOf list) names) = named names := by
  have select : Wordless "from".toList (selectWord.map .char) := by
    have other : ∀ c ∈ selectWord, c.toLower ≠ 'f'.toLower := by simp [selectWord]
    exact wordless_without rfl fun c member => other c (by simpa using member)
  have first : Wordless "from".toList
      (selectWord.map .char ++ .char ' ' :: (list ++ [.char ' '])) :=
    wordless_apart (by decide) select (wordless_apart (by decide) wordless
      (wordless_without (show "from".toList.head? = some 'f' from rfl) (by simp)))
  have here : WordAt (queryLexemes list names)
      (selectWord.map .char ++ .char ' ' :: (list ++ [.char ' '])) fromWord
      (.char ' ' :: dottedLexemes names) := by
    refine ⟨by simp [queryLexemes], by decide, List.all_eq_true.mp rfl, ?_, ?_⟩
    · intro lexeme last
      rw [← List.cons_append, ← List.append_assoc, List.getLast?_concat] at last
      cases last
      decide
    · rintro lexeme ⟨⟩
      decide
  have alike : DiffersInCase fromWord "from".toList := same_folded_iff.mp (by decide)
  have rest : sourceOf (.char ' ' :: dottedLexemes names) = ' ' :: dotted names := by
    rw [source_cons, dotted_source]
    rfl
  obtain ⟨found, behind⟩ := keyword_found (query_settled settled)
    (query_joined joined names) here alike first
  rw [query_source, rest] at behind
  rw [query_source] at found
  rw [ofQuery, found, Option.bind_some, behind]
  dsimp only
  rw [dotted_trimmed, dotted_name_reads each]
  rcases names with _ | ⟨table, _ | ⟨next, others⟩⟩ <;> rfl

/-! ## Analysed queries -/

/-- A blank may stand behind a lexeme that the scan is through with. -/
theorem ends_before_blank (outside : modeBehind lexeme = .normal) :
    EndsBefore lexeme (some ' ') := by
  cases lexeme with
  | string body closed =>
    cases closed with
    | true => simp [EndsBefore]
    | false => cases outside
  | identifier body closed =>
    cases closed with
    | true => simp [EndsBefore]
    | false => cases outside
  | lineComment body => cases outside
  | blockComment body => exact .inl (by simpa [modeBehind] using outside)
  | char c => simp [EndsBefore]

/-- Cleaning leaves settled lexemes of a select list, and a blank may stand behind them. -/
theorem select_settled {list : List Lexeme} (joined : Joined none list)
    (closed : ∀ lexeme ∈ list, ∀ words, ¬ LeftOpen lexeme words) :
    (∀ lexeme ∈ list.flatMap settle, Settled lexeme) ∧
      Joined (some ' ') (list.flatMap settle) := by
  have settled : ∀ lexeme ∈ list.flatMap settle, Settled lexeme := by
    intro lexeme member
    obtain ⟨before, here, kept⟩ := List.mem_flatMap.mp member
    exact settle_settled (closed before here) kept
  refine ⟨settled, joined_before (settled_joined joined closed) fun last final => ?_⟩
  exact settled_ends (settled last (List.mem_of_getLast? final)) (by simp)

private theorem query_clean {list : List Lexeme} {names : List Text} (filled : names ≠ [])
    (settled : ∀ lexeme ∈ list, Settled lexeme) (joined : Joined (some ' ') list)
    (single : separator ∉ list) : IsClean (queryLexemes list names) where
  joined := query_joined joined names
  settled := query_settled settled
  single := query_single single
  starts := by
    rintro lexeme ⟨⟩
    decide
  stops lexeme last := by
    obtain ⟨init, name, ends⟩ := dotted_last filled
    rw [queryLexemes, ends] at last
    simp only [← List.cons_append, ← List.append_assoc, List.getLast?_concat] at last
    cases last
    rfl

private theorem single_scanned (joined : Joined none lexemes)
    (closed : ∀ lexeme ∈ lexemes, ∀ words, ¬ LeftOpen lexeme words)
    (single : separator ∉ lexemes) :
    Segment.scan (sourceOf lexemes) = .ok [Segment.ofRun 0 lexemes] := by
  rw [scan_joined joined closed, runs_single single]
  rfl

private theorem query_cleaned (list : List Lexeme) (names : List Text) :
    cleanOf (queryLexemes list names) = query (cleanOf list) names := by
  rw [clean_source, query_settle, query_source, ← clean_source]

/-- Quoted targets are recovered. Let a select list be a text that the scan is through with,
that has no semicolon outside quotes and comments, and whose clean text has no word `FROM`
outside quotes. Behind it and `FROM`, let there be names in double quotes, the quotes in them
doubled, with dots between them; no name is empty, and any character may be in one. Then the
query is one statement, with the markers of the select list and no others; its database and
its table are the first two names, and a single name is that of the table. -/
theorem quoted_targets_are_recovered {select : Text} {names : List Text}
    (leaves : Reaches ⟨.normal, select⟩ ⟨.normal, []⟩) (single : separator ∉ ofText select)
    (wordless : Wordless "from".toList (ofText (cleanOf (ofText select))))
    (filled : names ≠ []) (each : ∀ name ∈ names, name ≠ []) :
    ∃ segment statement, Segment.scan select = .ok [segment] ∧
      segment.clean = cleanOf (ofText select) ∧
      Script.split (query select names) = .ok ⟨[statement]⟩ ∧
      Statement.analyze (query select names) = .ok statement ∧
      statement = ⟨query select names, query segment.clean names, 0,
        Text.byteLength (query select names),
        Statement.numberMarkers 0 1 (segment.markers.map (7 + ·)),
        .query (named names).1 (named names).2⟩ := by
  have joined := text_joined select
  have closed := open_quote_none (front_closed leaves)
  have before : Joined (some ' ') (ofText select) := joined_before joined fun last final =>
    ends_before_blank ((leaves_iff select).mp leaves last final)
  obtain ⟨settled, bare⟩ := select_settled joined closed
  rw [clean_source, joined_alone (joined_at_end bare)] at wordless
  have alone : separator ∉ (ofText select).flatMap settle := by
    intro member
    obtain ⟨lexeme, here, kept⟩ := List.mem_flatMap.mp member
    exact single (settle_single kept ▸ here)
  have clean : IsClean ((queryLexemes (ofText select) names).flatMap settle) :=
    query_settle _ names ▸ query_clean filled settled bare alone
  have target := query_target settled bare wordless each
  rw [← clean_source] at target
  have kind : StatementKind.ofClean (cleanOf (queryLexemes (ofText select) names)) =
      .ok (.query (named names).1 (named names).2) := by
    rw [query_cleaned, ← target]
    exact kind_of_query _
  have solid : (queryLexemes (ofText select) names).flatMap settle ≠ [] := by
    rw [query_settle]
    simp [queryLexemes]
  obtain ⟨visible, analysed⟩ := segment_of_run clean solid kind 0
  have scanned := single_scanned (query_joined before names) (query_closed closed)
    (query_single single)
  rw [query_source, text_source] at scanned analysed
  rw [query_cleaned, query_markers, Nat.zero_add] at analysed
  have alone := single_scanned joined closed single
  rw [text_source] at alone
  obtain ⟨split, whole⟩ := analyze_single scanned visible analysed
  exact ⟨_, _, alone, rfl, split, whole, rfl⟩

/-- Names with everything in them that quotes, separates, marks or opens a comment, behind a
select list with the word in a string, an identifier and two comments. -/
theorem hostile_target_is_recovered :
    let select := "'FROM;\\'', \"from\" /* from; */, x? -- from\n".toList
    let names := ["a\".b".toList, "?;--/*\n'".toList, "c".toList]
    Reaches ⟨.normal, select⟩ ⟨.normal, []⟩ ∧ separator ∉ ofText select ∧
      Wordless "from".toList (ofText (cleanOf (ofText select))) ∧ names ≠ [] ∧
      (∀ name ∈ names, name ≠ []) ∧
      ∃ statement, Statement.analyze (query select names) = .ok statement ∧
        statement.kind = .query (some "a\".b".toList) (some "?;--/*\n'".toList) ∧
        statement.markers = [⟨1, 29⟩] := by
  intro select names
  have last : (ofText select).getLast? = some (.char '\n') := by decide +kernel
  have leaves : Reaches ⟨.normal, select⟩ ⟨.normal, []⟩ := by
    rw [leaves_iff, last]
    rintro lexeme ⟨⟩
    rfl
  have single : separator ∉ ofText select := by decide +kernel
  have letters : (ofText (cleanOf (ofText select))).all (fun lexeme =>
      lexeme.source.head?.map Char.toLower != some 'f') = true := by
    decide +kernel
  have wordless : Wordless "from".toList (ofText (cleanOf (ofText select))) :=
    wordless_without (show "from".toList.head? = some 'f' from rfl) fun c member same =>
      bne_iff_ne.mp (List.all_eq_true.mp letters _ member) (congrArg some same)
  have filled : names ≠ [] := by decide
  have each : ∀ name ∈ names, name ≠ [] := by decide
  obtain ⟨segment, statement, scanned, -, -, analysed, same⟩ :=
    quoted_targets_are_recovered leaves single wordless filled each
  have marks : (Segment.scan select).map (List.map Segment.markers) = .ok [[22]] := by
    decide +kernel
  rw [scanned] at marks
  obtain ⟨marked, -⟩ := List.cons.inj (Except.ok.inj marks)
  refine ⟨leaves, single, wordless, filled, each, statement, analysed, ?_, ?_⟩
  · rw [same]
    rfl
  · rw [same, marked]
    rfl

end SqlWire.QueryTargets
