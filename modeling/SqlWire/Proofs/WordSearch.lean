import SqlWire.Proofs.KeywordSearch

/-! The search for a keyword as a walk over places between bytes. The walk goes from one place
to a later one, leaps over quotes, and cuts each run of word bytes out of the text to compare
it, which only works where characters begin. It ends on every text and comes to what the
search of the bytes comes to: in a clean text, the first word outside quotes that is the
keyword. -/
namespace SqlWire.WordSearch
open Target Lexeme Lexis Cleaning TypeCase KeywordSearch

/-! ## Places between characters -/

theorem from_byte_iff :
    Text.fromByte? place text = some rest ↔
      ∃ front, text = front ++ rest ∧ Text.byteLength front = place := by
  constructor
  · intro found
    induction text generalizing place with
    | nil =>
      rw [Text.fromByte?] at found
      split at found
      next start =>
        cases found
        exact ⟨[], rfl, start.symm⟩
      · cases found
    | cons c text ih =>
      rw [Text.fromByte?] at found
      split at found
      next start =>
        cases found
        exact ⟨[], rfl, start.symm⟩
      split at found
      · cases found
      next behind =>
        obtain ⟨front, rfl, length⟩ := ih found
        refine ⟨c :: front, rfl, ?_⟩
        rw [Text.byteLength_cons]
        omega
  · rintro ⟨front, rfl, rfl⟩
    exact Text.fromByte?_behind front rest

/-- A character begins at the place, or the text ends there. -/
def Between (text : Text) (place : Nat) : Prop := (Text.fromByte? place text).isSome

theorem between_iff : Between text place ↔
    ∃ front rest, text = front ++ rest ∧ Text.byteLength front = place := by
  simp only [Between, Option.isSome_iff_exists, from_byte_iff]
  exact exists_comm

/-- The text from one place to another. There is none from or to the inside of a
character. -/
def cut? (start stop : Nat) (text : Text) : Option Text := do
  let behind ← Text.fromByte? start text
  let rest ← Text.fromByte? stop text
  if stop < start then none else some (behind.take (behind.length - rest.length))

private theorem cut_between (front word rest : Text) :
    cut? (Text.byteLength front) (Text.byteLength (front ++ word)) (front ++ (word ++ rest)) =
      some word := by
  have behind := Text.fromByte?_behind front (word ++ rest)
  have after := Text.fromByte?_behind (front ++ word) rest
  have forward : ¬ Text.byteLength (front ++ word) < Text.byteLength front := by simp
  rw [List.append_assoc] at after
  simp only [cut?, behind, after, bind, Option.bind, if_neg forward]
  simp

/-- A byte of the ASCII range is a character of its own. -/
theorem ascii_place (here : (Text.toUtf8 text)[place]? = some b) (ascii : b.toNat < 128) :
    ∃ front c rest, text = front ++ c :: rest ∧ Text.byteLength front = place ∧
      String.utf8EncodeChar c = [b] := by
  induction text generalizing place with
  | nil => cases here
  | cons c text ih =>
    rw [bytes_cons] at here
    by_cases inside : place < (String.utf8EncodeChar c).length
    · rw [List.getElem?_append_left inside] at here
      have number := Utf8Text.ascii_number (List.mem_of_getElem? here) ascii
      have single : String.utf8EncodeChar c = [byteOf c] :=
        ascii_byte (number.trans_lt ascii : c.toNat < 128)
      rw [single] at inside here
      have start : place = 0 := Nat.lt_one_iff.mp inside
      subst start
      cases here
      exact ⟨[], c, text, rfl, rfl, single⟩
    · rw [List.getElem?_append_right (Nat.le_of_not_lt inside)] at here
      obtain ⟨front, d, rest, rfl, length, single⟩ := ih here
      refine ⟨c :: front, d, rest, rfl, ?_, single⟩
      rw [String.length_utf8EncodeChar] at inside length
      rw [Text.byteLength_cons]
      omega

private theorem ascii_between (here : (Text.toUtf8 text)[place]? = some b) (ascii : b.toNat < 128) :
    Between text place ∧ Between text (place + 1) := by
  obtain ⟨front, c, rest, rfl, rfl, single⟩ := ascii_place here ascii
  have width : c.utf8Size = 1 := by
    rw [← String.length_utf8EncodeChar, single]
    rfl
  refine ⟨between_iff.mpr ⟨front, _, rfl, rfl⟩, between_iff.mpr ⟨front ++ [c], rest, ?_, ?_⟩⟩
  · simp
  · simp [width]

private theorem end_between (text : Text) : Between text (Text.toUtf8 text).length :=
  between_iff.mpr ⟨text, [], by simp, (bytes_length text).symm⟩

/-- A byte that is no part of a word is in the ASCII range. -/
theorem other_ascii (other : isWordByte b = false) : b.toNat < 128 := by
  by_contra beyond
  have high : (0x80 : UInt8) ≤ b := UInt8.le_iff_toNat_le.mpr (Nat.le_of_not_lt beyond)
  simp [isWordByte, high] at other

/-! ## The walk -/

/-- The place behind the end of a quote, from a place inside it. -/
def quoteEnd (quote : UInt8) (bytes : Bytes) (place : Nat) : Nat :=
  match here : bytes[place]? with
  | none => bytes.length
  | some b =>
    if b = escapeByte && quote = stringQuote then quoteEnd quote bytes (place + 2)
    else if b = quote then
      if bytes[place + 1]? = some quote then quoteEnd quote bytes (place + 2) else place + 1
    else quoteEnd quote bytes (place + 1)
termination_by bytes.length - place
decreasing_by
  all_goals
    obtain ⟨inside, -⟩ := List.getElem?_eq_some_iff.mp here
    omega

/-- The place behind a run of word bytes. -/
def runEnd (bytes : Bytes) (place : Nat) : Nat :=
  place + ((bytes.drop place).takeWhile isWordByte).length

private theorem quote_end_later (quote : UInt8) (bytes : Bytes) (place : Nat) :
    min place bytes.length ≤ quoteEnd quote bytes place := by
  fun_induction quoteEnd quote bytes place <;> omega

private theorem run_end_later (here : bytes[place]? = some b) (word : isWordByte b = true) :
    place < runEnd bytes place := by
  obtain ⟨inside, rfl⟩ := List.getElem?_eq_some_iff.mp here
  rw [runEnd, List.drop_eq_getElem_cons inside, List.takeWhile_cons_of_pos word,
    List.length_cons]
  omega

/-- The walk from a place on: the place behind the first run outside quotes that is the
keyword in any case, if there is one. It comes to nothing at all if a run cannot be cut out of
the text. -/
def walk (keyword text : Text) (place : Nat) : Option (Option Nat) :=
  match here : (Text.toUtf8 text)[place]? with
  | none => some none
  | some b =>
    if b = stringQuote || b = identifierQuote then
      walk keyword text (quoteEnd b (Text.toUtf8 text) (place + 1))
    else if word : isWordByte b then
      (cut? place (runEnd (Text.toUtf8 text) place) text).bind fun run =>
        if Text.sameFolded run keyword then some (some (runEnd (Text.toUtf8 text) place))
        else walk keyword text (runEnd (Text.toUtf8 text) place)
    else walk keyword text (place + 1)
termination_by (Text.toUtf8 text).length - place
decreasing_by
  · obtain ⟨inside, -⟩ := List.getElem?_eq_some_iff.mp here
    have := quote_end_later b (Text.toUtf8 text) (place + 1)
    omega
  · obtain ⟨inside, -⟩ := List.getElem?_eq_some_iff.mp here
    have := run_end_later here word
    omega
  · obtain ⟨inside, -⟩ := List.getElem?_eq_some_iff.mp here
    omega

/-! ## What the walk comes to -/

private theorem drop_at {bytes : Bytes} (here : bytes[place]? = some b) :
    bytes.drop place = b :: bytes.drop (place + 1) := by
  obtain ⟨inside, rfl⟩ := List.getElem?_eq_some_iff.mp here
  exact List.drop_eq_getElem_cons inside

private theorem escape_within (escapes : (b = escapeByte && quote = stringQuote) = true)
    (rest : Bytes) :
    behindQuoted? keyword quote (b :: rest) = behindQuoted? keyword quote (rest.drop 1) := by
  cases rest with
  | nil => rfl
  | cons d rest =>
    rw [behindQuoted?, if_pos escapes]
    rfl

/-- A quote that is not doubled ends the quote it is in. -/
theorem quote_byte_closes (plain : ¬ (quote = escapeByte && quote = stringQuote) = true)
    (single : ¬ rest.head? = some quote) :
    behindQuoted? keyword quote (quote :: rest) = behindWord? keyword [] rest := by
  cases rest with
  | nil => rfl
  | cons d rest =>
    have other : d ≠ quote := fun same => single (congrArg some same)
    rw [behindQuoted?, if_neg plain, if_pos rfl, if_neg other]

/-- The search goes on behind a quote where the walk does. -/
theorem quote_end_search (keyword : Bytes) (quote : UInt8) (bytes : Bytes) (place : Nat) :
    behindQuoted? keyword quote (bytes.drop place) =
      behindWord? keyword [] (bytes.drop (quoteEnd quote bytes place)) := by
  fun_induction quoteEnd quote bytes place with
  | case1 place here =>
    rw [List.drop_eq_nil_of_le (List.getElem?_eq_none_iff.mp here), List.drop_length]
    rfl
  | case2 place b here escapes ih =>
    rw [← ih, drop_at here, escape_within escapes, List.drop_drop]
  | case3 place doubled here plain ih =>
    rw [← ih, drop_at here, drop_at doubled, behindQuoted?, if_neg plain, if_pos rfl, if_pos rfl]
  | case4 place single here plain =>
    rw [drop_at here, quote_byte_closes plain]
    rwa [List.head?_drop]
  | case5 place b here plain other ih =>
    have unescaped : b = escapeByte → quote ≠ stringQuote := by simpa using plain
    rw [← ih, drop_at here, byte_within other unescaped]

private theorem quote_end_between {bytes : Bytes} (text : Text) (same : bytes = Text.toUtf8 text)
    (mark : quote.toNat < 128) (place : Nat) : Between text (quoteEnd quote bytes place) := by
  fun_induction quoteEnd quote bytes place with
  | case1 place here => exact same ▸ end_between text
  | case2 place b here escapes ih => exact ih
  | case3 place doubled here plain ih => exact ih
  | case4 place single here plain => exact (ascii_between (same ▸ here) mark).2
  | case5 place b here plain other ih => exact ih

/-- Where a run ends, the search compares it. -/
theorem run_compared (ends : ∀ b ∈ rest.head?, isWordByte b = false) :
    behindWord? keyword run rest =
      if spells keyword run then some rest else behindWord? keyword [] rest := by
  cases rest with
  | nil => rfl
  | cons b rest =>
    have other : ¬ isWordByte b = true := Bool.eq_false_iff.mp (ends b rfl)
    have unread : spells keyword [] = false := rfl
    rw [behindWord?, behindWord?, if_neg other, if_neg other, unread]
    rfl

/-- Two places between characters have a text between them. -/
theorem between_parts (start : Between text i) (stop : Between text j) (forward : i ≤ j) :
    ∃ front word rest, text = front ++ (word ++ rest) ∧ Text.byteLength front = i ∧
      Text.byteLength (front ++ word) = j := by
  obtain ⟨front, behind, rfl, rfl⟩ := between_iff.mp start
  obtain ⟨longer, rest, same, rfl⟩ := between_iff.mp stop
  rcases List.append_eq_append_iff.mp same with ⟨word, rfl, rfl⟩ | ⟨word, rfl, rfl⟩
  · exact ⟨front, word, rest, rfl, rfl, rfl⟩
  · cases word with
    | nil => exact ⟨longer, [], behind, by simp, by simp, by simp⟩
    | cons c word =>
      have wide : 0 < c.utf8Size := c.utf8Size_pos
      rw [Text.byteLength_append, Text.byteLength_cons] at forward
      omega

/-- A run is all word bytes, and none stands behind it. -/
theorem run_parts (bytes : Bytes) (place : Nat) :
    ∃ run, bytes.drop place = run ++ bytes.drop (runEnd bytes place) ∧
      place + run.length = runEnd bytes place ∧ (∀ b ∈ run, isWordByte b = true) ∧
      ∀ b ∈ (bytes.drop (runEnd bytes place)).head?, isWordByte b = false := by
  have parts := List.takeWhile_append_dropWhile (p := isWordByte) (l := bytes.drop place)
  have rest := congrArg (List.drop ((bytes.drop place).takeWhile isWordByte).length) parts
  rw [List.drop_left, List.drop_drop, ← runEnd] at rest
  refine ⟨_, rest ▸ parts.symm, rfl, fun b member => List.mem_takeWhile_imp member, ?_⟩
  rw [← rest]
  intro b first
  have stops := List.head?_dropWhile_not isWordByte (bytes.drop place)
  rwa [first] at stops

private theorem run_end_inside (here : bytes[place]? = some b) :
    runEnd bytes place ≤ bytes.length := by
  obtain ⟨run, parts, stop, -⟩ := run_parts bytes place
  obtain ⟨inside, -⟩ := List.getElem?_eq_some_iff.mp here
  have length := congrArg List.length parts
  rw [List.length_append, List.length_drop, List.length_drop] at length
  omega

/-- A run ends between characters: before a byte of the ASCII range, or at the end of the
text. -/
theorem run_end_between (here : (Text.toUtf8 text)[place]? = some b) :
    Between text (runEnd (Text.toUtf8 text) place) := by
  obtain ⟨run, -, -, -, ends⟩ := run_parts (Text.toUtf8 text) place
  cases next : (Text.toUtf8 text)[runEnd (Text.toUtf8 text) place]? with
  | some d =>
    refine (ascii_between next (other_ascii (ends d ?_))).1
    rwa [List.head?_drop]
  | none =>
    have last := Nat.le_antisymm (run_end_inside here) (List.getElem?_eq_none_iff.mp next)
    exact last ▸ end_between text

/-- A run that begins between characters is cut out of the text, and the search compares it
as the walk does. -/
theorem run_cut (keyword : Text) (start : Between text place)
    (here : (Text.toUtf8 text)[place]? = some b) (word : isWordByte b = true) :
    ∃ run, cut? place (runEnd (Text.toUtf8 text) place) text = some run ∧
      behindWord? (Text.toUtf8 keyword) [] ((Text.toUtf8 text).drop place) =
        if Text.sameFolded run keyword then
          some ((Text.toUtf8 text).drop (runEnd (Text.toUtf8 text) place))
        else behindWord? (Text.toUtf8 keyword) []
          ((Text.toUtf8 text).drop (runEnd (Text.toUtf8 text) place)) := by
  have later := run_end_later here word
  obtain ⟨front, run, rest, parts, begins, stops⟩ :=
    between_parts start (run_end_between here) later.le
  obtain ⟨bytes, split, length, each, ends⟩ := run_parts (Text.toUtf8 text) place
  have same : Text.toUtf8 run = bytes := by
    have behind : (Text.toUtf8 text).drop place = Text.toUtf8 run ++ Text.toUtf8 rest := by
      rw [parts, bytes_append, bytes_append, ← begins, ← bytes_length, List.drop_left]
    rw [behind] at split
    apply List.append_inj_left split
    rw [Text.byteLength_append, begins] at stops
    rw [bytes_length]
    omega
  have some : run ≠ [] := by
    rintro rfl
    rw [List.append_nil, begins] at stops
    omega
  have cut := cut_between front run rest
  rw [← parts, begins, stops] at cut
  refine ⟨run, cut, ?_⟩
  rw [split, bytes_passed each, List.append_nil, run_compared ends, ← same]
  simp only [spells_iff, some, ne_eq, not_false_eq_true, true_and, same_folded_iff]

/-- A byte that begins no word is met without a word in front of it. -/
theorem other_met (other : isWordByte b = false) (rest : Bytes) :
    behindWord? keyword [] (b :: rest) =
      if b = stringQuote || b = identifierQuote then behindQuoted? keyword b rest
      else behindWord? keyword [] rest := by
  have unread : ¬ spells keyword [] = true := Bool.false_ne_true
  rw [behindWord?, if_neg (Bool.eq_false_iff.mp other), if_neg unread]

/-- From a place between characters the walk ends, every run on the way can be cut out, and
the place it comes to is that of the search. -/
theorem walk_ends (keyword : Text) (start : Between text place) :
    walk keyword text place =
      some ((behindWord? (Text.toUtf8 keyword) [] ((Text.toUtf8 text).drop place)).map
        fun rest => (Text.toUtf8 text).length - rest.length) := by
  fun_induction walk keyword text place with
  | case1 place here =>
    rw [List.drop_eq_nil_of_le (List.getElem?_eq_none_iff.mp here)]
    rfl
  | case2 place b here quotes ih =>
    have mark : b.toNat < 128 ∧ isWordByte b = false := by
      rw [Bool.or_eq_true, decide_eq_true_eq, decide_eq_true_eq] at quotes
      rcases quotes with rfl | rfl <;> decide
    rw [ih (quote_end_between text rfl mark.1 (place + 1)), ← quote_end_search, drop_at here,
      other_met mark.2, if_pos quotes]
  | case3 place b here quotes word ih =>
    obtain ⟨run, cut, compared⟩ := run_cut keyword start here word
    rw [cut, compared, Option.bind_some]
    split
    · rw [Option.map_some, List.length_drop, Nat.sub_sub_self (run_end_inside here)]
    · exact ih (run_end_between here)
  | case4 place b here quotes other ih =>
    have outside := Bool.eq_false_iff.mpr other
    rw [ih (ascii_between here (other_ascii outside)).2, drop_at here, other_met outside,
      if_neg quotes]

/-! ## The first word that is the keyword -/

/-- The first word among lexemes that is the keyword in any case. -/
structure FirstWord (keyword : Text) (lexemes front : List Lexeme) (word : Text)
    (behind : List Lexeme) : Prop where
  here : WordAt lexemes front word behind
  alike : DiffersInCase word keyword
  first : ∀ before other after, WordAt lexemes before other after →
    DiffersInCase other keyword → front.length ≤ before.length

private theorem first_word_exists (some : ¬ Wordless keyword lexemes) :
    ∃ front word behind, FirstWord keyword lexemes front word behind := by
  classical
  have lengths : ∃ length front word behind, WordAt lexemes front word behind ∧
      DiffersInCase word keyword ∧ front.length = length := by
    by_contra none
    exact some fun front word behind here alike =>
      none ⟨front.length, front, word, behind, here, alike, rfl⟩
  obtain ⟨front, word, behind, here, alike, least⟩ := Nat.find_spec lengths
  refine ⟨front, word, behind, here, alike, fun before other after there same => ?_⟩
  rw [least]
  exact Nat.find_min' lengths ⟨before, other, after, there, same, rfl⟩

private theorem wordless_before_first (found : FirstWord keyword lexemes front word behind) :
    Wordless keyword front := by
  intro before other after there same
  have ends : EndsWords front := found.here.starts
  have moved : WordAt (front ++ (word.map .char ++ behind)) before other
      (after ++ (word.map .char ++ behind)) := word_before ends there
  rw [← found.here.parts] at moved
  have least := found.first _ _ _ moved same
  have filled := List.length_pos_of_ne_nil there.some
  rw [there.parts, List.length_append, List.length_append, List.length_map] at least
  omega

/-- What the search for a keyword says of a clean text. -/
structure Tells (keyword clean : Text) : Prop where
  /-- Nothing stands open in the text, and there are no comments. -/
  settled : ∀ lexeme ∈ ofText clean, Settled lexeme
  nothing : findKeyword keyword clean = none ↔ Wordless keyword (ofText clean)
  first : ∀ place, findKeyword keyword clean = some place ↔ ∃ front word behind,
    FirstWord keyword (ofText clean) front word behind ∧
      place = Text.byteLength (sourceOf front ++ word)
  between : ∀ place, findKeyword keyword clean = some place → Between clean place
  ends : walk keyword clean 0 = some (findKeyword keyword clean)

private theorem walk_finds (keyword text : Text) :
    walk keyword text 0 = some (findKeyword keyword text) :=
  walk_ends keyword (between_iff.mpr ⟨[], text, rfl, rfl⟩)

private theorem search_tells (keyword : Text) (settled : ∀ lexeme ∈ lexemes, Settled lexeme)
    (joined : Joined none lexemes) : Tells keyword (sourceOf lexemes) := by
  have reads := joined_alone joined
  have found : ∀ {front word behind}, FirstWord keyword lexemes front word behind →
      findKeyword keyword (sourceOf lexemes) =
        some (Text.byteLength (sourceOf front ++ word)) := fun first =>
    (keyword_found settled joined first.here first.alike (wordless_before_first first)).1
  have first : ∀ {place}, findKeyword keyword (sourceOf lexemes) = some place →
      ∃ front word behind, FirstWord keyword lexemes front word behind ∧
        place = Text.byteLength (sourceOf front ++ word) := by
    intro place here
    have some : ¬ Wordless keyword lexemes := by
      intro none
      rw [nothing_found settled joined none] at here
      cases here
    obtain ⟨front, word, behind, first⟩ := first_word_exists some
    exact ⟨front, word, behind, first, Option.some.inj (here.symm.trans (found first))⟩
  refine ⟨reads.symm ▸ settled, ?_, ?_, ?_, walk_finds keyword _⟩
  · rw [reads]
    refine ⟨fun none => ?_, nothing_found settled joined⟩
    by_contra some
    obtain ⟨front, word, behind, first⟩ := first_word_exists some
    cases none.symm.trans (found first)
  · intro place
    rw [reads]
    refine ⟨first, ?_⟩
    rintro ⟨front, word, behind, here, rfl⟩
    exact found here
  · intro place here
    obtain ⟨front, word, behind, first, rfl⟩ := first here
    refine between_iff.mpr ⟨sourceOf front ++ word, sourceOf behind, ?_, rfl⟩
    rw [first.here.parts, source_append, source_append, source_chars, List.append_assoc]

/-- The search for a keyword agrees with the lexis. The lexemes of a clean text that a scan
gives are what the scan has kept of a run of the script. The search finds something just when
a word among them, which is a longest run of word characters outside quotes, is the keyword up
to case, and then the place behind the first such word, which is a place between characters.
The walk that the search takes over the bytes ends there, and all that it cuts out of the text
begins and ends between characters. -/
theorem keyword_search_agrees (keyword : Text) {segment : Segment}
    (scanned : Segment.scan script = .ok segments) (member : segment ∈ segments) :
    (∃ run ∈ runs (ofText script), ofText segment.clean = run.flatMap settle) ∧
      Tells keyword segment.clean := by
  have closed : openQuote? 0 (ofText script) = none := by
    rw [Segment.scan] at scanned
    split at scanned
    · cases scanned
    next closed => exact closed
  rw [Segment.scan, closed] at scanned
  cases scanned
  obtain ⟨run, here, place, rfl⟩ := run_of_segment member
  have part := run_part here
  have each : ∀ lexeme ∈ run, ∀ words, ¬ LeftOpen lexeme words := fun lexeme within =>
    open_quote_none closed lexeme (part.subset within)
  have joined := settled_joined (joined_part part (text_joined script)) each
  have settled : ∀ lexeme ∈ run.flatMap settle, Settled lexeme := by
    intro lexeme member
    obtain ⟨before, within, kept⟩ := List.mem_flatMap.mp member
    exact settle_settled (each before within) kept
  rw [Segment.ofRun, clean_source]
  exact ⟨⟨run, here, joined_alone joined⟩, search_tells keyword settled joined⟩

/-- A string with an escape before a letter of two bytes and doubled quotes, an identifier with
a quote of the other kind, and a longer word, all with the keyword in them. -/
theorem hidden_keywords_are_passed :
    let script := "-- from\nSELECT 'caf\\é from''FROM', \"a'from\"\"b\", ñfrom /* from */ fRoM t".toList
    let clean := "\nSELECT 'caf\\é from''FROM', \"a'from\"\"b\", ñfrom   fRoM t".toList
    Segment.scan script = .ok [⟨0, script, clean, []⟩] ∧
      findKeyword "from".toList clean = some 55 ∧ Tells "from".toList clean := by
  intro script clean
  have scanned : Segment.scan script = .ok [⟨0, script, clean, []⟩] := by decide +kernel
  exact ⟨scanned, by decide +kernel,
    (keyword_search_agrees "from".toList scanned (List.mem_singleton_self _)).2⟩

end SqlWire.WordSearch
