import SqlWire.Proofs.Cleaning

/-! Splitting a script loses nothing. The statements stand in the script in their
order, with nothing between them but separators, comments and blanks, and what stands
behind the last one belongs to it. Each of them is what analysis finds in its source
alone, since the lexemes of a part of a script are read in that part as in the whole. -/
namespace SqlWire.Splitting
open Lexeme Lexis Cleaning

/-! ## Lexemes of no statement -/

/-- What may stand between statements. -/
inductive Idle : Lexeme → Prop where
  | separator : Idle (.char ';')
  | lineComment : Idle (.lineComment body)
  | blockComment : Idle (.blockComment body)
  | blank (blank : Text.isBlank c) : Idle (.char c)

/-- Apart from separators, idle lexemes are those that cleaning and trimming remove. -/
theorem idle_iff_clean (single : lexeme ≠ separator) :
    Text.allBlank lexeme.clean ↔ Idle lexeme := by
  constructor
  · intro blank
    cases lexeme with
    | string body closed => simp [Text.allBlank, clean, source, Text.isBlank] at blank
    | identifier body closed => simp [Text.allBlank, clean, source, Text.isBlank] at blank
    | lineComment body => exact .lineComment
    | blockComment body => exact .blockComment
    | char c => exact .blank (by simpa [Text.allBlank, clean, source] using blank)
  · intro idle
    cases idle with
    | separator => exact absurd rfl single
    | lineComment => rfl
    | blockComment => rfl
    | blank blank => simpa [Text.allBlank, clean, source] using blank

private theorem idle_iff_blank (single : separator ∉ run) :
    Text.allBlank (cleanOf run) ↔ ∀ lexeme ∈ run, Idle lexeme := by
  induction run with
  | nil => simp [cleanOf, Text.allBlank]
  | cons lexeme run ih =>
    rw [List.mem_cons, not_or] at single
    have front : cleanOf (lexeme :: run) = lexeme.clean ++ cleanOf run := by simp [cleanOf]
    rw [List.forall_mem_cons, ← ih single.2, ← idle_iff_clean (Ne.symm single.1), front,
      Text.allBlank, List.all_append, Bool.and_eq_true]
    rfl

private theorem idle_closed (idle : Idle lexeme) : ∀ words, ¬ LeftOpen lexeme words := by
  intro words opened
  cases opened <;> cases idle

/-! ## Runs -/

/-- Runs with a separator before each of them. -/
def separated (runs : List (List Lexeme)) : List Lexeme := runs.flatMap (separator :: ·)

theorem separated_cons (run : List Lexeme) (others : List (List Lexeme)) :
    separated (run :: others) = separator :: (run ++ separated others) := by
  simp [separated]

theorem intercalate_separated (run : List Lexeme) (others : List (List Lexeme)) :
    [separator].intercalate (run :: others) = run ++ separated others := by
  induction others generalizing run with
  | nil => simp [separated]
  | cons next others ih =>
    rw [List.intercalate_cons_cons, ih, separated_cons]
    simp

/-- Runs that hold no separator are the runs of what they are joined to. -/
theorem runs_of_separated (apart : ∀ part ∈ run :: others, separator ∉ part) :
    runs (run ++ separated others) = run :: others := by
  induction others generalizing run with
  | nil => simpa [separated] using runs_single (apart run List.mem_cons_self)
  | cons next others ih =>
    obtain ⟨single, behind⟩ := List.forall_mem_cons.mp apart
    have later := ih behind
    rw [separated_cons]
    induction run with
    | nil =>
      rw [runs] at later
      simpa [runs, runsFrom, separator, isSeparator] using later
    | cons lexeme run inner =>
      rw [List.mem_cons, not_or] at single
      have other : lexeme.isSeparator = false := by
        rw [Bool.eq_false_iff, ne_eq, is_separator_iff]
        exact fun same => single.1 same.symm
      have rest := inner (List.forall_mem_cons.mpr ⟨single.2, behind⟩) single.2
      simp only [runs, List.cons.injEq] at rest
      simp [runs, runsFrom, other, rest]

/-- The segments of runs have these runs as their sources. -/
theorem segments_source (start : Nat) (runs : List (List Lexeme)) :
    (Segment.ofRuns start runs).flatMap (fun segment => ';' :: segment.source) =
      sourceOf (separated runs) := by
  induction runs generalizing start with
  | nil => rfl
  | cons run runs ih =>
    rw [Segment.ofRuns, List.flatMap_cons, ih, separated_cons]
    simp [sourceOf, separator, source, Segment.ofRun]

/-- The last segment of runs ends where they end. -/
theorem segments_stop (start : Nat) (run : List Lexeme) (others : List (List Lexeme)) :
    (Segment.ofRuns start (run :: others)).getLast?.map Segment.stop =
      some (start + Text.byteLength (sourceOf (run ++ separated others))) := by
  induction others generalizing start run with
  | nil => simp [Segment.ofRuns, Segment.stop, Segment.ofRun, separated]
  | cons next others ih =>
    obtain ⟨segments, same⟩ :
        ∃ segments, Segment.ofRuns ((Segment.ofRun start run).stop + 1) (next :: others) =
          Segment.ofRun ((Segment.ofRun start run).stop + 1) next :: segments := ⟨_, rfl⟩
    have behind := ih ((Segment.ofRun start run).stop + 1) next
    rw [Segment.ofRuns, same, List.getLast?_cons_cons, ← same, behind, separated_cons]
    simp [Segment.stop, Segment.ofRun, sourceOf, separator, source, Char.utf8Size]
    omega

/-! ## Statements on their runs -/

/-- A statement that stands on a run, behind the lexemes `before`. The runs `others`
behind it are part of its source and of nothing else. -/
structure StandsOn (before run : List Lexeme) (others : List (List Lexeme))
    (statement : Statement) : Prop where
  start : statement.start = Text.byteLength (sourceOf before)
  stop : statement.stop =
    Text.byteLength (sourceOf before) + Text.byteLength (sourceOf (run ++ separated others))
  source : statement.source = sourceOf (run ++ separated others)
  visible : Text.allBlank (cleanOf run) = false
  clean : statement.clean = Text.trim (cleanOf run)
  markers : statement.markers = Statement.numberMarkers
    ((cleanOf run).takeWhile Text.isBlank).length 1 (markersOf 0 run)
  kind : StatementKind.ofClean statement.clean = .ok statement.kind

/-- The statement of a segment, where there is one. -/
theorem segment_stands (visible : Text.allBlank (cleanOf run) = false)
    (ok : Statement.ofSegment (Segment.ofRun (Text.byteLength (sourceOf before)) run) = .ok own) :
    StandsOn before run [] own := by
  rw [Statement.ofSegment] at ok
  split at ok
  · cases ok
  next kind classified =>
    cases ok
    exact ⟨rfl, by simp [Segment.stop, Segment.ofRun, separated],
      by simp [Segment.ofRun, separated], visible, rfl, rfl, classified⟩

/-- A statement that takes in the segments behind it. -/
theorem absorb_stands (own : StandsOn before run [] statement) (others : List (List Lexeme))
    (follows : start = statement.stop + 1) :
    StandsOn before run others (statement.absorb (Segment.ofRuns start others)) := by
  have sourced := own.source
  rw [separated, List.flatMap_nil, List.append_nil] at sourced
  refine ⟨own.start, ?_, ?_, own.visible, own.clean, own.markers, own.kind⟩
  · cases others with
    | nil => exact own.stop
    | cons next others =>
      rw [Statement.absorb, segments_stop, follows, own.stop, separated_cons]
      simp [separated, sourceOf, separator, Lexeme.source, Char.utf8Size]
      omega
  · rw [Statement.absorb, segments_source, sourced, source_append]

/-- Statements in their order among lexemes that stand behind `before`: only idle ones
stand between them, and the last statement ends where the lexemes end. -/
inductive Laid : (before lexemes : List Lexeme) → List Statement → Prop where
  | none (idle : ∀ lexeme ∈ lexemes, Idle lexeme) : Laid before lexemes []
  | cons (idle : ∀ lexeme ∈ gap, Idle lexeme) (own : StandsOn (before ++ gap) run others statement)
      (apart : ∀ part ∈ run :: others, separator ∉ part)
      (idleBehind : ∀ lexeme ∈ separated others, Idle lexeme)
      (behind : Laid (before ++ gap ++ (run ++ separated others)) lexemes later)
      (last : later = [] → lexemes = []) :
      Laid before (gap ++ (run ++ separated others) ++ lexemes) (statement :: later)

private theorem laid_none (laid : Laid before lexemes []) : ∀ lexeme ∈ lexemes, Idle lexeme := by
  cases laid with
  | none idle => exact idle

/-- The segment behind that of a run begins behind a separator. -/
theorem next_start (before run : List Lexeme) :
    (Segment.ofRun (Text.byteLength (sourceOf before)) run).stop + 1 =
      Text.byteLength (sourceOf (before ++ run ++ [separator])) := by
  rw [(run_described before run).stop]
  simp [sourceOf, separator, source, Char.utf8Size, Nat.add_assoc]

/-- Runs come to statements laid among their lexemes. -/
theorem runs_laid (apart : ∀ part ∈ run :: others, separator ∉ part)
    (idle : ∀ lexeme ∈ gap, Idle lexeme)
    (ok : Script.ofSegments
      (Segment.ofRuns (Text.byteLength (sourceOf (before ++ gap))) (run :: others)) =
        .ok statements) :
    Laid before (gap ++ (run ++ separated others)) statements := by
  induction others generalizing run before gap statements with
  | nil =>
    rcases segments_cases ok with ⟨blank, rest⟩ | ⟨visible, own, after, analysed, rest, rfl⟩
    · cases rest
      have idleRun := (idle_iff_blank (apart run List.mem_cons_self)).mp blank
      refine .none ?_
      simpa [separated] using List.forall_mem_append.mpr ⟨idle, idleRun⟩
    · cases rest
      have stands := segment_stands visible analysed
      have alone : Laid before (gap ++ (run ++ separated []) ++ []) [own.absorb []] :=
        .cons idle (absorb_stands stands [] rfl) apart (by simp [separated])
          (.none (by simp)) fun _ => rfl
      rwa [List.append_nil] at alone
  | cons next others ih =>
    obtain ⟨single, behind⟩ := List.forall_mem_cons.mp apart
    have separator_idle : ∀ lexeme ∈ [separator], Idle lexeme := by
      intro lexeme member
      cases List.mem_singleton.mp member
      exact .separator
    rcases segments_cases ok with ⟨blank, rest⟩ | ⟨visible, own, after, analysed, rest, rfl⟩
    · have idleRun := (idle_iff_blank single).mp blank
      rw [next_start, List.append_assoc, List.append_assoc] at rest
      have laid := ih behind (List.forall_mem_append.mpr
        ⟨idle, List.forall_mem_append.mpr ⟨idleRun, separator_idle⟩⟩) rest
      simpa [separated_cons] using laid
    · have stands := segment_stands visible analysed
      rw [next_start] at rest
      have laid := ih behind separator_idle rest
      cases after with
      | nil =>
        have idleBehind := laid_none laid
        have whole : Laid before (gap ++ (run ++ separated (next :: others)) ++ [])
            [own.absorb (Segment.ofRuns
              ((Segment.ofRun (Text.byteLength (sourceOf (before ++ gap))) run).stop + 1)
              (next :: others))] := by
          refine .cons idle (absorb_stands stands _ ?_) apart ?_ (.none (by simp)) fun _ => rfl
          · rw [(run_described (before ++ gap) run).stop, stands.stop]
            simp [separated, source_append, Nat.add_assoc]
          · simpa [separated_cons] using idleBehind
        rwa [List.append_nil] at whole
      | cons first after =>
        have front : ∀ part ∈ [run], separator ∉ part := by simpa using single
        have whole : Laid before
            (gap ++ (run ++ separated []) ++ ([separator] ++ (next ++ separated others)))
            (own :: first :: after) := by
          refine .cons idle stands front (by simp [separated]) ?_ (by simp)
          simpa [separated] using laid
        simpa [separated] using whole

/-! ## Places -/

/-- Every statement is a part of the script at its place, and none begins before the
lexemes do. -/
theorem laid_slices (laid : Laid before lexemes statements) :
    ∀ statement ∈ statements, ∃ front behind,
      sourceOf (before ++ lexemes) = front ++ statement.source ++ behind ∧
      statement.start = Text.byteLength front ∧
      statement.stop = Text.byteLength (front ++ statement.source) ∧
      Text.byteLength (sourceOf before) ≤ statement.start := by
  induction laid with
  | none idle => simp
  | @cons gap before run others own lexemes later idle stands apart idleBehind laid last ih =>
    refine List.forall_mem_cons.mpr ⟨?_, fun statement member => ?_⟩
    · refine ⟨sourceOf (before ++ gap), sourceOf lexemes, ?_, stands.start, ?_, ?_⟩
      · simp [stands.source, source_append]
      · rw [stands.stop, stands.source, Text.byteLength_append]
      · rw [stands.start, source_append, Text.byteLength_append]
        exact Nat.le_add_right ..
    · obtain ⟨front, behind, parts, start, stop, least⟩ := ih statement member
      refine ⟨front, behind, ?_, start, stop, Nat.le_trans ?_ least⟩
      · rw [← parts]
        simp
      · simp only [source_append, Text.byteLength_append]
        omega

/-- No statement begins before an earlier one ends. -/
theorem laid_ordered (laid : Laid before lexemes statements) :
    statements.Pairwise fun earlier later => earlier.stop ≤ later.start := by
  induction laid with
  | none idle => exact .nil
  | @cons gap before run others own lexemes later idle stands apart idleBehind laid last ih =>
    refine .cons (fun statement member => ?_) ih
    obtain ⟨-, -, -, -, -, least⟩ := laid_slices laid statement member
    rw [source_append, Text.byteLength_append, ← stands.stop] at least
    exact least

/-- Where the statement before ends, or where the lexemes begin, there are only idle
lexemes up to where a statement begins. -/
theorem laid_gaps (laid : Laid before lexemes statements)
    (parts : statements = front ++ statement :: behind) :
    ∃ passed gap rest, before ++ lexemes = passed ++ gap ++ rest ∧ (∀ lexeme ∈ gap, Idle lexeme) ∧
      (front.getLast?.map Statement.stop).getD (Text.byteLength (sourceOf before)) =
        Text.byteLength (sourceOf passed) ∧
      statement.start = Text.byteLength (sourceOf (passed ++ gap)) := by
  induction laid generalizing front with
  | none idle => simp at parts
  | @cons gap before run others own lexemes later idle stands apart idleBehind laid last ih =>
    cases front with
    | nil =>
      obtain ⟨rfl, rfl⟩ := List.cons.inj parts
      exact ⟨before, gap, run ++ separated others ++ lexemes, by simp, idle, rfl, stands.start⟩
    | cons first front =>
      obtain ⟨rfl, rfl⟩ := List.cons.inj parts
      obtain ⟨passed, between, rest, same, idleBetween, place, start⟩ := ih rfl
      refine ⟨passed, between, rest, ?_, idleBetween, ?_, start⟩
      · rw [← same]
        simp
      · rw [← place, source_append (before ++ gap), Text.byteLength_append, ← stands.stop,
          List.getLast?_cons]
        cases front.getLast? <;> rfl

/-- The last statement ends where the lexemes end. -/
theorem laid_ends (laid : Laid before lexemes statements) :
    ∀ last ∈ statements.getLast?, last.stop = Text.byteLength (sourceOf (before ++ lexemes)) := by
  induction laid with
  | none idle => simp
  | @cons gap before run others own lexemes later idle stands apart idleBehind laid last ih =>
    intro final found
    cases later with
    | nil =>
      obtain rfl : own = final := Option.some.inj found
      rw [last rfl, stands.stop]
      simp [source_append, Nat.add_assoc]
    | cons next later =>
      rw [List.getLast?_cons_cons] at found
      rw [ih final found]
      simp

/-! ## Parts of a script on their own -/

/-- Lexemes that are read one after the other are scanned as a script of their own. -/
theorem scan_joined (joined : Joined none lexemes)
    (closed : ∀ lexeme ∈ lexemes, ∀ words, ¬ LeftOpen lexeme words) :
    Segment.scan (sourceOf lexemes) = .ok (Segment.ofRuns 0 (runs lexemes)) := by
  have reads := joined_alone joined
  rw [Segment.scan, reads]
  cases found : openQuote? 0 lexemes with
  | none => rfl
  | some error =>
    obtain ⟨init, last, rfl, opened, -⟩ := open_quote_last (cut_iff_reads.mpr reads) found
    exact absurd opened (closed last (List.mem_append_right _ List.mem_cons_self) _)

/-- Idle runs come to no statements. -/
theorem idle_segments (start : Nat)
    (idle : ∀ run ∈ parts, separator ∉ run ∧ ∀ lexeme ∈ run, Idle lexeme) :
    Script.ofSegments (Segment.ofRuns start parts) = .ok [] := by
  induction parts generalizing start with
  | nil => rfl
  | cons run parts ih =>
    obtain ⟨⟨single, here⟩, others⟩ := List.forall_mem_cons.mp idle
    have blank : (Segment.ofRun start run).isBlank = true := (idle_iff_blank single).mpr here
    rw [Segment.ofRuns, Script.ofSegments, blank]
    exact ih _ others

/-- What stands between statements is a script without any. -/
theorem split_idle (joined : Joined none gap) (idle : ∀ lexeme ∈ gap, Idle lexeme) :
    Script.split (sourceOf gap) = .ok ⟨[]⟩ := by
  have blank : Script.ofSegments (Segment.ofRuns 0 (runs gap)) = .ok [] :=
    idle_segments 0 fun run member =>
      ⟨runs_separated gap run member, fun lexeme here =>
        idle lexeme ((run_part member).subset here)⟩
  rw [Script.split, scan_joined joined fun lexeme member => idle_closed (idle lexeme member)]
  simp only [bind, Except.bind, blank]

/-- The source of a statement is analysed as the statement it is of. -/
theorem stands_alone (stands : StandsOn before run others statement)
    (joined : Joined none (run ++ separated others))
    (closed : ∀ lexeme ∈ run ++ separated others, ∀ words, ¬ LeftOpen lexeme words)
    (apart : ∀ part ∈ run :: others, separator ∉ part)
    (idle : ∀ lexeme ∈ separated others, Idle lexeme) :
    ∃ alone, Statement.analyze statement.source = .ok alone ∧ StandsOn [] run others alone := by
  have kind := stands.kind
  rw [stands.clean] at kind
  obtain ⟨own, analysed⟩ : ∃ own, Statement.ofSegment (Segment.ofRun 0 run) = .ok own := by
    simp [Statement.ofSegment, Segment.ofRun, kind]
  have visible : (Segment.ofRun 0 run).isBlank = false := stands.visible
  have blank : Script.ofSegments (Segment.ofRuns ((Segment.ofRun 0 run).stop + 1) others) =
      .ok [] := by
    refine idle_segments _ fun part member => ⟨apart part (List.mem_cons_of_mem _ member), ?_⟩
    intro lexeme here
    exact idle lexeme (List.mem_flatMap.mpr ⟨part, member, List.mem_cons_of_mem _ here⟩)
  have own_stands : StandsOn [] run [] own := segment_stands stands.visible analysed
  refine ⟨own.absorb (Segment.ofRuns ((Segment.ofRun 0 run).stop + 1) others), ?_,
    absorb_stands own_stands others ?_⟩
  · rw [stands.source, Statement.analyze, Script.split, scan_joined joined closed,
      runs_of_separated apart, Segment.ofRuns]
    simp [Script.ofSegments, visible, analysed, blank, bind, Except.bind]
  · rw [own_stands.stop]
    simp [Segment.stop, Segment.ofRun, separated, sourceOf]

/-- Analysis of a statement's source finds the statement again. -/
theorem laid_alone (laid : Laid before lexemes statements) (joined : Joined next lexemes)
    (closed : ∀ lexeme ∈ lexemes, ∀ words, ¬ LeftOpen lexeme words) :
    ∀ statement ∈ statements, ∃ alone, Statement.analyze statement.source = .ok alone ∧
      alone.source = statement.source ∧ alone.clean = statement.clean ∧
      alone.markers = statement.markers ∧ alone.kind = statement.kind := by
  induction laid generalizing next with
  | none idle => simp
  | @cons gap before run others own lexemes later idle stands apart idleBehind laid last ih =>
    obtain ⟨joinedFront, joinedBehind⟩ := joined_append.mp joined
    obtain ⟨closedFront, closedBehind⟩ := List.forall_mem_append.mp closed
    refine List.forall_mem_cons.mpr ⟨?_, ih joinedBehind closedBehind⟩
    obtain ⟨alone, analysed, found⟩ := stands_alone stands
      (joined_at_end (joined_append.mp joinedFront).2) (List.forall_mem_append.mp closedFront).2
      apart idleBehind
    have clean : alone.clean = own.clean := found.clean.trans stands.clean.symm
    have kind := found.kind
    rw [clean, stands.kind] at kind
    exact ⟨alone, analysed, found.source.trans stands.source.symm, clean,
      found.markers.trans stands.markers.symm, (Except.ok.inj kind).symm⟩

/-! ## Markers -/

/-- The markers of a statement are numbered from one, and stand in ascending order at
question marks of its clean text. -/
structure Marked (statement : Statement) : Prop where
  numbered : statement.markers.map Marker.id = List.range' 1 statement.markerCount
  ascending : statement.markers.Pairwise fun earlier later => earlier.offset < later.offset
  inside : ∀ marker ∈ statement.markers, marker.offset < statement.clean.length ∧
    statement.clean[marker.offset]? = some '?'

private theorem numbered_ids (leading next : Nat) (offsets : List Nat) :
    (Statement.numberMarkers leading next offsets).map Marker.id =
      List.range' next offsets.length := by
  induction offsets generalizing next with
  | nil => rfl
  | cons offset offsets ih =>
    rw [Statement.numberMarkers, List.map_cons, ih, List.length_cons, List.range'_succ]

theorem numbered_offsets (next : Nat) (offsets : List Nat) :
    (Statement.numberMarkers 0 next offsets).map Marker.offset = offsets := by
  induction offsets generalizing next with
  | nil => rfl
  | cons offset offsets ih => rw [Statement.numberMarkers, List.map_cons, ih, Nat.sub_zero]

theorem clean_marked (clean : IsClean lexemes) (text : statement.clean = sourceOf lexemes)
    (markers : statement.markers = Statement.numberMarkers 0 1 (markersOf 0 lexemes)) :
    Marked statement := by
  have offsets := numbered_offsets 1 (markersOf 0 lexemes)
  refine ⟨?_, ?_, fun marker member => ?_⟩
  · have count := congrArg List.length offsets
    rw [List.length_map] at count
    rw [Statement.markerCount, markers, numbered_ids, count]
  · have ascends := (markers_ascend 0 lexemes).1
    rw [← offsets, List.pairwise_map] at ascends
    rwa [markers]
  · have place : marker.offset ∈ markersOf 0 lexemes := by
      rw [← offsets, ← markers]
      exact List.mem_map_of_mem member
    obtain ⟨front, back, rfl, offset⟩ := mem_markers.mp place
    rw [Nat.zero_add, clean_settled fun lexeme here =>
      clean.settled lexeme (List.mem_append_left _ here)] at offset
    have parts : statement.clean = sourceOf front ++ '?' :: sourceOf back := by
      rw [text, source_append]
      rfl
    rw [offset, parts]
    simp

/-- Trimming never removes a marker. -/
theorem leading_before_markers (place : offset ∈ markersOf 0 run) :
    ((cleanOf run).takeWhile Text.isBlank).length ≤ offset := by
  obtain ⟨front, back, rfl, rfl⟩ := mem_markers.mp place
  have parts : cleanOf (front ++ .char '?' :: back) = cleanOf front ++ '?' :: cleanOf back := by
    simp [cleanOf, clean, source]
  have stops : ('?' :: cleanOf back).takeWhile Text.isBlank = [] := rfl
  rw [parts, Nat.zero_add, List.takeWhile_append, stops, List.append_nil]
  split
  · exact Nat.le_refl _
  · exact (List.takeWhile_prefix _).length_le

/-! ## Scripts -/

/-- Where the statements of a script stand: each is a part of it, in order, with only
idle lexemes before it, and the last one ends where the script does. Without statements
the whole script is idle. -/
structure Places (sql : Text) (statements : List Statement) : Prop where
  slices : ∀ statement ∈ statements, ∃ front behind, sql = front ++ statement.source ++ behind ∧
    statement.start = Text.byteLength front ∧
    statement.stop = Text.byteLength (front ++ statement.source)
  ordered : statements.Pairwise fun earlier later => earlier.stop ≤ later.start
  gaps : ∀ front statement behind, statements = front ++ statement :: behind →
    ∃ passed gap rest, sql = passed ++ gap ++ rest ∧
      (front.getLast?.map Statement.stop).getD 0 = Text.byteLength passed ∧
      statement.start = Text.byteLength (passed ++ gap) ∧
      (∀ lexeme ∈ ofText gap, Idle lexeme) ∧ Script.split gap = .ok ⟨[]⟩
  ends : ∀ last ∈ statements.getLast?, last.stop = Text.byteLength sql
  empty : statements = [] → ∀ lexeme ∈ ofText sql, Idle lexeme

private theorem laid_places (laid : Laid [] (ofText sql) statements) : Places sql statements := by
  have whole := text_source sql
  refine ⟨fun statement member => ?_, laid_ordered laid, ?_, fun last found => ?_, ?_⟩
  · obtain ⟨front, behind, parts, start, stop, -⟩ := laid_slices laid statement member
    rw [List.nil_append, whole] at parts
    exact ⟨front, behind, parts, start, stop⟩
  · intro front statement behind parts
    obtain ⟨passed, gap, rest, same, idle, place, start⟩ := laid_gaps laid parts
    rw [List.nil_append] at same
    have joined : Joined none gap := by
      refine joined_part ⟨passed, rest, ?_⟩ (text_joined sql)
      exact same.symm
    have text : sql = sourceOf passed ++ sourceOf gap ++ sourceOf rest := by
      rw [← whole, same, source_append, source_append]
    rw [source_append] at start
    refine ⟨sourceOf passed, sourceOf gap, sourceOf rest, text, place, start, ?_,
      split_idle joined idle⟩
    rwa [joined_alone joined]
  · rw [laid_ends laid last found, List.nil_append, whole]
  · rintro rfl
    exact laid_none laid

theorem script_laid (ok : Script.split sql = .ok script) :
    Laid [] (ofText sql) script.statements := by
  obtain ⟨-, -, analysed⟩ := split_cases ok
  obtain ⟨run, others, parts⟩ : ∃ run others, runs (ofText sql) = run :: others := ⟨_, _, rfl⟩
  have apart := runs_separated (ofText sql)
  have joined := runs_joined (ofText sql)
  rw [parts] at analysed apart joined
  rw [intercalate_separated] at joined
  have noGap : ∀ lexeme ∈ ([] : List Lexeme), Idle lexeme := by simp
  have start : Text.byteLength (sourceOf ([] ++ [])) = 0 := rfl
  rw [← start] at analysed
  have laid := runs_laid apart noGap analysed
  rwa [List.nil_append, joined] at laid

private theorem total_markers (script : Script) :
    script.totalMarkers = (script.statements.map Statement.markerCount).foldr (· + ·) 0 := by
  rw [Script.totalMarkers, List.foldr_map]

/-- Splitting loses nothing. The statements stand in the script one behind the other with
only separators, blanks and comments before each, and the last one ends with the script.
The markers of each are numbered and placed in its clean text, with no offset before the
blanks that were trimmed off, and analysing the source of a statement finds its clean
text, its markers and its kind again. -/
theorem split_loses_nothing (ok : Script.split sql = .ok script) :
    Places sql script.statements ∧ (∀ statement ∈ script.statements, Marked statement) ∧
      script.totalMarkers = (script.statements.map Statement.markerCount).foldr (· + ·) 0 ∧
      (∃ segments, Segment.scan sql = .ok segments ∧ ∀ segment ∈ segments,
        ∀ offset ∈ segment.markers,
          (segment.clean.takeWhile Text.isBlank).length ≤ offset) ∧
      ∀ statement ∈ script.statements, ∃ alone, Statement.analyze statement.source = .ok alone ∧
        alone.source = statement.source ∧ alone.clean = statement.clean ∧
        alone.markers = statement.markers ∧ alone.kind = statement.kind := by
  obtain ⟨closed, scanned, -⟩ := split_cases ok
  have laid := script_laid ok
  refine ⟨laid_places laid, fun statement member => ?_, total_markers script,
    ⟨_, scanned, fun segment member offset place => ?_⟩,
    laid_alone laid (text_joined sql) (open_quote_none closed)⟩
  · obtain ⟨lexemes, clean, text, markers, -⟩ := split_statement ok member
    exact clean_marked clean text markers
  · obtain ⟨run, -, start, rfl⟩ := run_of_segment member
    exact leading_before_markers place

/-- Two statements with comments and empty statements around them. The question mark in
quotes is no marker, and the second statement takes in the end of the script. -/
theorem small_script_splits :
    let sql := ";/*a*/\n; select '?', ? ; --b\n; set k = v ; --end".toList
    let first : Statement :=
      ⟨" select '?', ? ".toList, "select '?', ?".toList, 8, 23, [⟨1, 12⟩], .query none none⟩
    let second : Statement :=
      ⟨" set k = v ; --end".toList, "set k = v".toList, 30, 48, [], .setParameter ['k'] ['v']⟩
    Script.split sql = .ok ⟨[first, second]⟩ ∧ Places sql [first, second] ∧ Marked first ∧
      ∃ alone, Statement.analyze second.source = .ok alone ∧ alone.clean = second.clean ∧
        alone.kind = second.kind := by
  intro sql first second
  have ok : Script.split sql = .ok ⟨[first, second]⟩ := by decide +kernel
  obtain ⟨places, marked, -, -, recovered⟩ := split_loses_nothing ok
  obtain ⟨alone, analysed, -, clean, -, kind⟩ :=
    recovered second (List.mem_cons_of_mem _ List.mem_cons_self)
  exact ⟨ok, places, marked first List.mem_cons_self, alone, analysed, clean, kind⟩

end SqlWire.Splitting
