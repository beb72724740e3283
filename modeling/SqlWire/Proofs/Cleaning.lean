import Mathlib.Data.List.TakeWhile
import SqlWire.Script.Analysis
import SqlWire.Proofs.Lexis

/-! A clean text is cut into lexemes again, and into the ones that cleaning kept:
dropping comments brings no two lexemes together that would be read as one. Such
lexemes are described without the text they came from, and analysing their text
gives back that text and their markers. -/
namespace SqlWire.Cleaning
open Lexeme Lexis

/-- Lexemes that are read one after the other when `next` stands behind them. -/
def Joined (next : Option Char) : List Lexeme → Prop
  | [] => True
  | lexeme :: lexemes =>
    Formed lexeme ∧ EndsBefore lexeme ((sourceOf lexemes).head?.or next) ∧ Joined next lexemes

theorem source_append (front back : List Lexeme) :
    sourceOf (front ++ back) = sourceOf front ++ sourceOf back := by
  simp [sourceOf]

theorem source_cons (lexeme : Lexeme) (lexemes : List Lexeme) :
    sourceOf (lexeme :: lexemes) = lexeme.source ++ sourceOf lexemes := List.flatMap_cons

theorem source_starts (lexeme : Lexeme) (lexemes : List Lexeme) :
    (sourceOf (lexeme :: lexemes)).head? = lexeme.source.head? := by
  cases lexeme <;> rfl

/-- Characters of their own stand for the text they make up. -/
theorem source_chars (text : Text) : sourceOf (text.map .char) = text := by
  induction text with
  | nil => rfl
  | cons c text ih => rw [List.map_cons, source_cons, ih, source, List.singleton_append]

theorem joined_append : Joined next (front ++ back) ↔
    Joined ((sourceOf back).head?.or next) front ∧ Joined next back := by
  induction front with
  | nil => simp [Joined]
  | cons lexeme front ih =>
    simp only [List.cons_append, Joined, ih, source_append, List.head?_append, Option.or_assoc,
      and_assoc]

/-- Characters that open nothing are read one after the other, whatever is behind them. -/
theorem plain_joined {text : Text} (plain : ∀ c ∈ text, c ∉ ['\'', '"', '-', '/'])
    (next : Option Char) : Joined next (text.map .char) := by
  induction text with
  | nil => trivial
  | cons c text ih =>
    obtain ⟨here, behind⟩ := List.forall_mem_cons.mp plain
    simp only [List.mem_cons, List.not_mem_nil, or_false, not_or] at here
    obtain ⟨quote, double, dash, slash⟩ := here
    exact ⟨⟨quote, double⟩, by simp [EndsBefore, dash, slash], ih behind⟩

/-- What may stand in front of something may stand at the end of a text. -/
theorem ends_at_end (ends : EndsBefore lexeme next) : EndsBefore lexeme none := by
  cases lexeme with
  | string body closed => cases closed <;> simp [EndsBefore]
  | identifier body closed => cases closed <;> simp [EndsBefore]
  | lineComment body => exact .inl rfl
  | blockComment body => exact .inr rfl
  | char c => simp [EndsBefore]

theorem joined_at_end (joined : Joined next lexemes) : Joined none lexemes := by
  induction lexemes with
  | nil => trivial
  | cons lexeme lexemes ih =>
    obtain ⟨formed, ends, behind⟩ := joined
    refine ⟨formed, ?_, ih behind⟩
    cases first : (sourceOf lexemes).head? with
    | none => exact ends_at_end ends
    | some c => simpa [first] using ends

/-- What may stand behind the last lexeme may stand behind them all. -/
theorem joined_before (joined : Joined none lexemes)
    (ends : ∀ last ∈ lexemes.getLast?, EndsBefore last next) : Joined next lexemes := by
  induction lexemes with
  | nil => trivial
  | cons lexeme lexemes ih =>
    obtain ⟨formed, after, behind⟩ := joined
    cases lexemes with
    | nil => exact ⟨formed, ends lexeme rfl, trivial⟩
    | cons other lexemes =>
      refine ⟨formed, ?_, ih behind ends⟩
      rw [source_starts] at after ⊢
      cases other <;> exact after

/-- Lexemes that are read one after the other are so in every part of them. -/
theorem joined_part (part : run <:+: lexemes) (joined : Joined next lexemes) :
    Joined none run := by
  obtain ⟨before, after, rfl⟩ := part
  exact joined_at_end (joined_append.mp (joined_append.mp joined).1).2

theorem joined_reads (joined : Joined rest.head? lexemes) :
    ofText (sourceOf lexemes ++ rest) = lexemes ++ ofText rest := by
  induction lexemes with
  | nil => rfl
  | cons lexeme lexemes ih =>
    obtain ⟨formed, ends, behind⟩ := joined
    rw [← List.head?_append] at ends
    have front : sourceOf (lexeme :: lexemes) = lexeme.source ++ sourceOf lexemes := by
      simp [sourceOf]
    rw [front, List.append_assoc, source_reads formed ends, ih behind, List.cons_append]

/-- Lexemes that are read one after the other are those of their text. -/
theorem joined_alone (joined : Joined none lexemes) : ofText (sourceOf lexemes) = lexemes := by
  have front : Joined ([] : Text).head? lexemes := joined
  have reads := joined_reads front
  rwa [ofText, List.append_nil, List.append_nil] at reads

private theorem cut_joined (cut : Cut text lexemes) : Joined none lexemes := by
  induction cut with
  | nil => trivial
  | cons formed ends cut ih =>
    refine ⟨formed, ?_, ih⟩
    rwa [cut_source cut, Option.or_none]

theorem text_joined (text : Text) : Joined none (ofText text) := cut_joined (text_cut text)

theorem text_source (text : Text) : sourceOf (ofText text) = text := cut_source (text_cut text)

/-! ## Lexemes that cleaning leaves as they are -/

/-- A lexeme that is closed and no comment. -/
inductive Settled : Lexeme → Prop where
  | string : Settled (.string body true)
  | identifier : Settled (.identifier body true)
  | char : Settled (.char c)

/-- What cleaning leaves of a lexeme, as lexemes. -/
def settle : Lexeme → List Lexeme
  | .lineComment _ => []
  | .blockComment _ => [.char ' ']
  | lexeme => [lexeme]

private theorem settle_clean (lexeme : Lexeme) : sourceOf (settle lexeme) = lexeme.clean := by
  cases lexeme <;> simp [settle, clean, sourceOf, source]

theorem clean_source (run : List Lexeme) : cleanOf run = sourceOf (run.flatMap settle) := by
  induction run with
  | nil => rfl
  | cons lexeme run ih =>
    rw [List.flatMap_cons, source_append, settle_clean, ← ih]
    rfl

theorem settle_settled (closed : ∀ words, ¬ LeftOpen lexeme words) (member : kept ∈ settle lexeme) :
    Settled kept := by
  cases lexeme with
  | string body ended =>
    cases List.mem_singleton.mp member
    cases ended with
    | true => exact .string
    | false => exact absurd .string (closed _)
  | identifier body ended =>
    cases List.mem_singleton.mp member
    cases ended with
    | true => exact .identifier
    | false => exact absurd .identifier (closed _)
  | lineComment body => cases member
  | blockComment body =>
    cases List.mem_singleton.mp member
    exact .char
  | char c =>
    cases List.mem_singleton.mp member
    exact .char

theorem settle_single (member : separator ∈ settle lexeme) : lexeme = separator := by
  cases lexeme <;> simp_all [settle, separator, eq_comm]

private theorem settled_settle (settled : Settled lexeme) : settle lexeme = [lexeme] := by
  cases settled <;> rfl

theorem settled_kept {lexemes : List Lexeme} (settled : ∀ lexeme ∈ lexemes, Settled lexeme) :
    lexemes.flatMap settle = lexemes := by
  induction lexemes with
  | nil => rfl
  | cons lexeme lexemes ih =>
    obtain ⟨here, others⟩ := List.forall_mem_cons.mp settled
    rw [List.flatMap_cons, settled_settle here, ih others, List.singleton_append]

/-- Cleaning changes nothing where there are no comments. -/
theorem clean_settled (settled : ∀ lexeme ∈ lexemes, Settled lexeme) :
    cleanOf lexemes = sourceOf lexemes := by
  rw [clean_source, settled_kept settled]

/-- Only a closing quote is particular about blanks and line breaks; nothing else
that is settled is. -/
theorem settled_ends (settled : Settled lexeme) (plain : ∀ c ∈ next, c = ' ' ∨ c = '\n') :
    EndsBefore lexeme next := by
  cases next with
  | none => cases settled <;> simp [EndsBefore]
  | some c => rcases plain c rfl with rfl | rfl <;> cases settled <;> simp [EndsBefore]

/-- Behind a lexeme, cleaning leaves what stood there, a space in place of a block
comment, or the end of the line that a line comment stood on. -/
theorem settled_next (joined : Joined none run) :
    (sourceOf (run.flatMap settle)).head? = (sourceOf run).head? ∨
      ∀ c ∈ (sourceOf (run.flatMap settle)).head?, c = ' ' ∨ c = '\n' := by
  cases run with
  | nil => exact .inl rfl
  | cons lexeme run =>
    obtain ⟨formed, ends, behind⟩ := joined
    cases lexeme with
    | string body closed => exact .inl rfl
    | identifier body closed => exact .inl rfl
    | char c => exact .inl rfl
    | blockComment body => exact .inr (by simp [settle, sourceOf, source])
    | lineComment body =>
      right
      cases run with
      | nil => simp [settle, sourceOf]
      | cons lexeme run =>
        rw [Option.or_none] at ends
        cases lexeme <;> simp_all [EndsBefore, sourceOf, source, settle]

/-- Dropping comments leaves lexemes that are read as they were. -/
theorem settled_joined (joined : Joined none run)
    (closed : ∀ lexeme ∈ run, ∀ words, ¬ LeftOpen lexeme words) :
    Joined none (run.flatMap settle) := by
  induction run with
  | nil => trivial
  | cons lexeme run ih =>
    obtain ⟨formed, ends, behind⟩ := joined
    have others := ih behind fun other member => closed other (List.mem_cons_of_mem _ member)
    rw [Option.or_none] at ends
    rw [List.flatMap_cons]
    by_cases settled : Settled lexeme
    · rw [settled_settle settled, List.singleton_append]
      refine ⟨formed, ?_, others⟩
      rw [Option.or_none]
      rcases settled_next behind with same | plain
      · rwa [same]
      · exact settled_ends settled plain
    · cases lexeme with
      | lineComment body => exact others
      | blockComment body => exact ⟨by simp [Formed], by simp [EndsBefore], others⟩
      | char c => exact absurd .char settled
      | string body ended =>
        exact absurd (settle_settled (closed _ List.mem_cons_self) (by simp [settle])) settled
      | identifier body ended =>
        exact absurd (settle_settled (closed _ List.mem_cons_self) (by simp [settle])) settled

/-! ## Markers -/

theorem markers_append (base : Nat) (front back : List Lexeme) :
    markersOf base (front ++ back) =
      markersOf base front ++ markersOf (base + (cleanOf front).length) back := by
  induction front generalizing base with
  | nil => simp [markersOf, cleanOf]
  | cons lexeme front ih =>
    have width : (cleanOf (lexeme :: front)).length =
        lexeme.clean.length + (cleanOf front).length := by
      simp [cleanOf]
    rw [List.cons_append, markersOf, ih, markersOf, width, Nat.add_assoc]
    split <;> rfl

private theorem settle_markers (base : Nat) (lexeme : Lexeme) :
    markersOf base (settle lexeme) = markersOf base [lexeme] := by
  cases lexeme <;> rfl

/-- Cleaning keeps every marker where it stands in the clean text. -/
theorem settled_markers (base : Nat) (run : List Lexeme) :
    markersOf base (run.flatMap settle) = markersOf base run := by
  induction run generalizing base with
  | nil => rfl
  | cons lexeme run ih =>
    have width : (cleanOf (settle lexeme)).length = (cleanOf [lexeme]).length := by
      cases lexeme <;> simp [settle, cleanOf, clean, source]
    rw [List.flatMap_cons, markers_append, ih, settle_markers, width, ← markers_append,
      List.singleton_append]

theorem no_markers (none : .char '?' ∉ run) : markersOf base run = [] := by
  induction run generalizing base with
  | nil => rfl
  | cons lexeme run ih =>
    rw [List.mem_cons, not_or] at none
    have other : lexeme ≠ .char '?' := fun same => none.1 same.symm
    simp [markersOf, isMarker, other, ih none.2]

/-- Counting offsets from where a run begins numbers its markers the same
wherever the run stands. -/
theorem numbered_from_start (base next : Nat) (run : List Lexeme) :
    Statement.numberMarkers base next (markersOf base run) =
      Statement.numberMarkers 0 next (markersOf 0 run) := by
  suffices shifted : ∀ extra, Statement.numberMarkers base next (markersOf (base + extra) run) =
      Statement.numberMarkers 0 next (markersOf extra run) from shifted 0
  induction run generalizing next with
  | nil => intro extra; rfl
  | cons lexeme run ih =>
    intro extra
    rw [markersOf, markersOf, Nat.add_assoc]
    split
    · rw [Statement.numberMarkers, Statement.numberMarkers, ih, Nat.add_sub_cancel_left,
        Nat.sub_zero]
    · exact ih next _

/-! ## Trimming -/

/-- A blank outside quotes. -/
def isSpace : Lexeme → Bool
  | .char c => Text.isBlank c
  | _ => false

private theorem leading (p : α → Bool) (list : List α) :
    ∃ front rest, list = front ++ rest ∧ (∀ a ∈ front, p a) ∧ ∀ a ∈ rest.head?, p a = false := by
  refine ⟨list.takeWhile p, list.dropWhile p, List.takeWhile_append_dropWhile.symm,
    fun a member => List.mem_takeWhile_imp member, fun a first => ?_⟩
  have stops := List.head?_dropWhile_not p list
  rwa [first] at stops

/-- A list between the elements of one kind around it. -/
theorem surrounded (p : α → Bool) (list : List α) :
    ∃ front core back, list = front ++ (core ++ back) ∧ (∀ a ∈ front, p a) ∧ (∀ a ∈ back, p a) ∧
      (∀ a ∈ core.head?, p a = false) ∧ ∀ a ∈ core.getLast?, p a = false := by
  obtain ⟨front, rest, rfl, before, starts⟩ := leading p list
  obtain ⟨back, core, same, behind, stops⟩ := leading p rest.reverse
  have split : rest = core.reverse ++ back.reverse := by
    rw [← List.reverse_append, ← same, List.reverse_reverse]
  refine ⟨front, core.reverse, back.reverse, by rw [split], before, ?_, ?_, ?_⟩
  · exact fun a member => behind a (List.mem_reverse.mp member)
  · intro a first
    apply starts a
    rw [split, List.head?_append, first, Option.some_or]
    rfl
  · rwa [List.getLast?_reverse]

theorem trim_surrounded (before : ∀ c ∈ front, Text.isBlank c) (behind : ∀ c ∈ back, Text.isBlank c)
    (starts : ∀ c ∈ core.head?, Text.isBlank c = false)
    (stops : ∀ c ∈ core.getLast?, Text.isBlank c = false) :
    Text.trim (front ++ (core ++ back)) = core := by
  rw [Text.trim, Text.trimStart, List.dropWhile_append_of_pos before]
  cases core with
  | nil =>
    have blank : back.dropWhile Text.isBlank = [] := List.dropWhile_eq_nil_iff.mpr behind
    rw [List.nil_append, blank]
    rfl
  | cons c core =>
    have solid : Text.isBlank c = false := starts c rfl
    have kept : (c :: core ++ back).dropWhile Text.isBlank = c :: core ++ back :=
      List.dropWhile_cons_of_neg (by simp [solid])
    rw [kept, Text.trimEnd, List.reverse_append,
      List.dropWhile_append_of_pos fun d member => behind d (List.mem_reverse.mp member)]
    exact Text.trimEnd_eq_self stops

/-- A text is what trimming leaves of it with blanks around. -/
theorem trim_parts (text : Text) : ∃ front back, text = front ++ (Text.trim text ++ back) ∧
    (∀ c ∈ front, Text.isBlank c = true) ∧ (∀ c ∈ back, Text.isBlank c = true) ∧
    (∀ c ∈ (Text.trim text).head?, Text.isBlank c = false) ∧
    ∀ c ∈ (Text.trim text).getLast?, Text.isBlank c = false := by
  obtain ⟨front, core, back, parts, before, behind, starts, stops⟩ := surrounded Text.isBlank text
  have trimmed := trim_surrounded before behind starts stops
  rw [← parts] at trimmed
  subst trimmed
  exact ⟨front, back, parts, before, behind, starts, stops⟩

theorem trim_eq_nil (text : Text) :
    Text.trim text = [] ↔ ∀ c ∈ text, Text.isBlank c = true := by
  simp only [Text.trim, Text.trimEnd, Text.trimStart, List.reverse_eq_nil_iff,
    List.dropWhile_eq_nil_iff, List.mem_reverse]
  constructor
  · intro behind c member
    rw [← List.takeWhile_append_dropWhile (p := Text.isBlank) (l := text)] at member
    rcases List.mem_append.mp member with front | rest
    · exact List.mem_takeWhile_imp front
    · exact behind c rest
  · exact fun blank c member => blank c ((List.dropWhile_suffix _).subset member)

/-- The lexemes of a clean text: settled, of one statement, and without blanks around
them. -/
structure IsClean (lexemes : List Lexeme) : Prop where
  joined : Joined none lexemes
  settled : ∀ lexeme ∈ lexemes, Settled lexeme
  single : separator ∉ lexemes
  starts : ∀ lexeme ∈ lexemes.head?, isSpace lexeme = false
  stops : ∀ lexeme ∈ lexemes.getLast?, isSpace lexeme = false

private theorem space_settled (space : isSpace lexeme) : Settled lexeme := by
  cases lexeme with
  | char c => exact .char
  | _ => cases space

private theorem no_space_markers (spaces : ∀ lexeme ∈ run, isSpace lexeme) :
    markersOf base run = [] :=
  no_markers fun marker => absurd (spaces _ marker) (by decide)

private theorem source_of_spaces (spaces : ∀ lexeme ∈ run, isSpace lexeme) :
    ∀ c ∈ sourceOf run, Text.isBlank c := by
  intro c member
  obtain ⟨lexeme, here, within⟩ := List.mem_flatMap.mp member
  have space := spaces lexeme here
  cases lexeme with
  | char d =>
    cases List.mem_singleton.mp within
    exact space
  | _ => cases space

private theorem settled_solid_start (settled : Settled lexeme) (solid : isSpace lexeme = false) :
    ∀ c ∈ lexeme.source.head?, Text.isBlank c = false := by
  cases settled with
  | string => rintro c ⟨⟩; decide
  | identifier => rintro c ⟨⟩; decide
  | char => rintro c ⟨⟩; exact solid

private theorem settled_solid_stop (formed : Formed lexeme) (settled : Settled lexeme)
    (solid : isSpace lexeme = false) : ∀ c ∈ lexeme.source.getLast?, Text.isBlank c = false := by
  cases settled with
  | string =>
    obtain ⟨inside, -, rfl⟩ := formed
    intro c last
    rw [source, ← List.cons_append, List.getLast?_concat] at last
    cases last
    decide
  | identifier =>
    obtain ⟨inside, -, rfl⟩ := formed
    intro c last
    rw [source, ← List.cons_append, List.getLast?_concat] at last
    cases last
    decide
  | char => rintro c ⟨⟩; exact solid

private theorem source_not_empty (lexeme : Lexeme) : lexeme.source ≠ [] := by
  cases lexeme <;> simp [source]

theorem source_stops (lexemes : List Lexeme) (lexeme : Lexeme) :
    (sourceOf (lexemes ++ [lexeme])).getLast? = lexeme.source.getLast? := by
  have single : sourceOf [lexeme] = lexeme.source := by simp [sourceOf]
  obtain ⟨last, ends⟩ := Option.ne_none_iff_exists'.mp
    (mt List.getLast?_eq_none_iff.mp (source_not_empty lexeme))
  rw [source_append, single, List.getLast?_append, ends, Option.some_or]

theorem joined_formed (joined : Joined next lexemes) : ∀ lexeme ∈ lexemes, Formed lexeme := by
  induction lexemes with
  | nil => simp
  | cons lexeme lexemes ih => exact List.forall_mem_cons.mpr ⟨joined.1, ih joined.2.2⟩

/-- No blank begins or ends a clean text. -/
theorem clean_solid (clean : IsClean lexemes) :
    (∀ c ∈ (sourceOf lexemes).head?, Text.isBlank c = false) ∧
      ∀ c ∈ (sourceOf lexemes).getLast?, Text.isBlank c = false := by
  constructor
  · cases lexemes with
    | nil => simp [sourceOf]
    | cons lexeme lexemes =>
      rw [source_starts]
      exact settled_solid_start (clean.settled _ List.mem_cons_self) (clean.starts _ rfl)
  · rcases List.eq_nil_or_concat lexemes with rfl | ⟨init, last, rfl⟩
    · simp [sourceOf]
    · rw [List.concat_eq_append] at clean ⊢
      rw [source_stops]
      have member : last ∈ init ++ [last] := List.mem_append_right _ List.mem_cons_self
      exact settled_solid_stop (joined_formed clean.joined _ member) (clean.settled _ member)
        (clean.stops _ List.getLast?_concat)

/-! ## Statements -/

/-- What analysis keeps of a run between separators: the lexemes of a clean text,
with their markers numbered from one. -/
theorem run_cleaned (joined : Joined none run)
    (closed : ∀ lexeme ∈ run, ∀ words, ¬ LeftOpen lexeme words) (single : separator ∉ run) :
    ∃ lexemes, IsClean lexemes ∧ Text.trim (cleanOf run) = sourceOf lexemes ∧
      Statement.numberMarkers ((cleanOf run).takeWhile Text.isBlank).length 1 (markersOf 0 run) =
        Statement.numberMarkers 0 1 (markersOf 0 lexemes) := by
  obtain ⟨front, core, back, split, before, behind, starts, stops⟩ :=
    surrounded isSpace (run.flatMap settle)
  have part : core <:+: run.flatMap settle := ⟨front, back, by rw [split, List.append_assoc]⟩
  have whole : ∀ lexeme ∈ run.flatMap settle, Settled lexeme := by
    intro lexeme member
    obtain ⟨before, here, kept⟩ := List.mem_flatMap.mp member
    exact settle_settled (closed before here) kept
  have apart : separator ∉ run.flatMap settle := by
    intro member
    obtain ⟨before, here, kept⟩ := List.mem_flatMap.mp member
    exact single (settle_single kept ▸ here)
  have clean : IsClean core :=
    ⟨joined_part part (settled_joined joined closed), fun lexeme member =>
      whole lexeme (part.subset member), fun member => apart (part.subset member), starts, stops⟩
  have blankBefore := source_of_spaces before
  have solid := clean_solid clean
  refine ⟨core, clean, ?_, ?_⟩
  · rw [clean_source, split, source_append, source_append]
    exact trim_surrounded blankBefore (source_of_spaces behind) solid.1 solid.2
  · have marks : markersOf 0 run = markersOf (sourceOf front).length core := by
      rw [← settled_markers, split, markers_append, markers_append, no_space_markers before,
        no_space_markers behind, List.nil_append, List.append_nil,
        clean_settled fun _ member => space_settled (before _ member),
        Nat.zero_add]
    rw [marks]
    cases core with
    | nil => rfl
    | cons lexeme core =>
      have front : (cleanOf run).takeWhile Text.isBlank = sourceOf front := by
        rw [clean_source, split, source_append, source_append,
          List.takeWhile_append_of_pos blankBefore]
        obtain ⟨c, rest, same⟩ := List.exists_cons_of_ne_nil (source_not_empty lexeme)
        have blank : Text.isBlank c = false :=
          solid.1 c (by rw [source_starts, same]; rfl)
        simp [sourceOf, same, blank]
      rw [front]
      exact numbered_from_start _ 1 _

private theorem piece_part {pieces : List (List α)} (member : piece ∈ pieces) (glue : List α) :
    piece <:+: glue.intercalate pieces := by
  induction pieces with
  | nil => cases member
  | cons first others ih =>
    cases others with
    | nil =>
      cases List.mem_singleton.mp member
      exact List.intercalate_singleton.symm ▸ List.infix_rfl
    | cons next others =>
      rw [List.intercalate_cons_cons]
      rcases List.mem_cons.mp member with rfl | later
      · rw [List.append_assoc]
        exact (List.prefix_append ..).isInfix
      · exact (ih later).trans (List.suffix_append ..).isInfix

theorem run_part (member : run ∈ runs lexemes) : run <:+: lexemes := by
  have part := piece_part member [separator]
  rwa [runs_joined] at part

theorem run_of_segment {runs : List (List Lexeme)} {segment : Segment}
    (member : segment ∈ Segment.ofRuns start runs) :
    ∃ run ∈ runs, ∃ place, segment = Segment.ofRun place run := by
  induction runs generalizing start with
  | nil => cases member
  | cons run runs ih =>
    rcases List.mem_cons.mp member with rfl | member
    · exact ⟨run, List.mem_cons_self, start, rfl⟩
    · obtain ⟨other, here, place, same⟩ := ih member
      exact ⟨other, List.mem_cons_of_mem _ here, place, same⟩

/-- What a segment and those behind it come to. -/
theorem segments_cases {segment : Segment} {segments : List Segment}
    (ok : Script.ofSegments (segment :: segments) = .ok statements) :
    (segment.isBlank = true ∧ Script.ofSegments segments = .ok statements) ∨
      segment.isBlank = false ∧ ∃ own behind, Statement.ofSegment segment = .ok own ∧
        Script.ofSegments segments = .ok behind ∧
        statements = if behind.isEmpty then [own.absorb segments] else own :: behind := by
  rw [Script.ofSegments] at ok
  cases blank : segment.isBlank with
  | true =>
    rw [blank] at ok
    exact .inl ⟨rfl, ok⟩
  | false =>
    rw [blank] at ok
    refine .inr ⟨rfl, ?_⟩
    cases first : Statement.ofSegment segment with
    | error fault =>
      rw [first] at ok
      cases ok
    | ok own =>
      cases others : Script.ofSegments segments with
      | error fault =>
        rw [first, others] at ok
        cases ok
      | ok behind =>
        refine ⟨own, behind, rfl, rfl, ?_⟩
        rw [first, others] at ok
        simp only [bind, Except.bind, Bool.false_eq_true, ↓reduceIte] at ok
        split at ok <;> cases ok <;> simp [*]

/-- Every statement is that of a segment, up to the source it has taken in. -/
theorem statement_of_segment (ok : Script.ofSegments segments = .ok statements)
    (member : statement ∈ statements) :
    ∃ segment ∈ segments, ∃ own, Statement.ofSegment segment = .ok own ∧
      statement.clean = own.clean ∧ statement.markers = own.markers ∧
      statement.kind = own.kind := by
  induction segments generalizing statements with
  | nil =>
    cases ok
    cases member
  | cons segment segments ih =>
    rcases segments_cases ok with ⟨-, rest⟩ | ⟨-, own, behind, analysed, rest, rfl⟩
    · obtain ⟨other, here, found⟩ := ih rest member
      exact ⟨other, List.mem_cons_of_mem _ here, found⟩
    · split at member
      · cases List.mem_singleton.mp member
        exact ⟨segment, List.mem_cons_self, own, analysed, rfl, rfl, rfl⟩
      · rcases List.mem_cons.mp member with rfl | later
        · exact ⟨segment, List.mem_cons_self, _, analysed, rfl, rfl, rfl⟩
        · obtain ⟨other, here, found⟩ := ih rest later
          exact ⟨other, List.mem_cons_of_mem _ here, found⟩

/-- Splitting succeeds on the segments of a script without open quotes. -/
theorem split_cases (ok : Script.split sql = .ok script) :
    openQuote? 0 (ofText sql) = none ∧
      Segment.scan sql = .ok (Segment.ofRuns 0 (runs (ofText sql))) ∧
      Script.ofSegments (Segment.ofRuns 0 (runs (ofText sql))) = .ok script.statements := by
  rw [Script.split, Segment.scan] at ok
  rw [Segment.scan]
  cases found : openQuote? 0 (ofText sql) with
  | some error =>
    rw [found] at ok
    cases ok
  | none =>
    simp only [found, bind, Except.bind] at ok
    refine ⟨rfl, rfl, ?_⟩
    split at ok
    · cases ok
    next statements analysed =>
      cases ok
      exact analysed

/-- Each statement of a script has the text and the markers of clean lexemes, and
the kind of its clean text. -/
theorem split_statement (ok : Script.split sql = .ok script)
    (member : statement ∈ script.statements) :
    ∃ lexemes, IsClean lexemes ∧ statement.clean = sourceOf lexemes ∧
      statement.markers = Statement.numberMarkers 0 1 (markersOf 0 lexemes) ∧
      StatementKind.ofClean statement.clean = .ok statement.kind := by
  obtain ⟨closed, -, found⟩ := split_cases ok
  obtain ⟨segment, within, own, analysed, sameClean, sameMarkers, sameKind⟩ :=
    statement_of_segment found member
  obtain ⟨run, here, place, rfl⟩ := run_of_segment within
  have part := run_part here
  obtain ⟨lexemes, clean, trimmed, numbered⟩ :=
    run_cleaned (joined_part part (text_joined sql))
      (fun lexeme within => open_quote_none closed lexeme (part.subset within))
      (runs_separated _ run here)
  rw [sameClean, sameMarkers, sameKind]
  simp only [Statement.ofSegment, Segment.ofRun, trimmed, numbered] at analysed
  split at analysed
  · cases analysed
  next kind classified =>
    cases analysed
    exact ⟨lexemes, clean, rfl, rfl, classified⟩

/-- The statement of a text has the text and the markers of clean lexemes. It has
the kind of its clean text, unless there is none. -/
theorem analyze_statement (ok : Statement.analyze sql = .ok statement) :
    ∃ lexemes, IsClean lexemes ∧ statement.clean = sourceOf lexemes ∧
      statement.markers = Statement.numberMarkers 0 1 (markersOf 0 lexemes) ∧
      (lexemes ≠ [] → StatementKind.ofClean statement.clean = .ok statement.kind) := by
  cases parts : Script.split sql with
  | error error =>
    rw [Statement.analyze, parts] at ok
    cases ok
  | ok script =>
    simp only [Statement.analyze, parts, bind, Except.bind] at ok
    split at ok
    · cases ok
      exact ⟨[], ⟨trivial, by simp, by simp, by simp, by simp⟩, rfl, rfl, by simp⟩
    next only single =>
      cases ok
      obtain ⟨lexemes, clean, text, markers, kind⟩ :=
        split_statement parts (single ▸ List.mem_singleton_self statement)
      exact ⟨lexemes, clean, text, markers, fun _ => kind⟩
    · cases ok

theorem clean_reads (clean : IsClean lexemes) : ofText (sourceOf lexemes) = lexemes :=
  joined_alone clean.joined

private theorem settled_no_open_quote (settled : ∀ lexeme ∈ lexemes, Settled lexeme) :
    openQuote? offset lexemes = none := by
  induction lexemes generalizing offset with
  | nil => rfl
  | cons lexeme lexemes ih =>
    have behind : openQuote? (offset + Text.byteLength lexeme.source) lexemes = none :=
      ih fun other member => settled other (List.mem_cons_of_mem _ member)
    cases settled lexeme List.mem_cons_self <;> simpa [openQuote?] using behind

theorem runs_single (single : separator ∉ lexemes) : runs lexemes = [lexemes] := by
  induction lexemes with
  | nil => rfl
  | cons lexeme lexemes ih =>
    rw [List.mem_cons, not_or] at single
    have behind := ih single.2
    have other : lexeme.isSeparator = false := by
      rw [Bool.eq_false_iff, ne_eq, is_separator_iff]
      exact fun same => single.1 same.symm
    cases split : runsFrom lexemes with
    | mk first others =>
      rw [runs, split, List.cons.injEq] at behind
      simp [runs, runsFrom, split, other, behind]

private theorem clean_not_blank (clean : IsClean lexemes) (some : lexemes ≠ []) :
    Text.allBlank (sourceOf lexemes) = false ∧
      (sourceOf lexemes).takeWhile Text.isBlank = [] := by
  obtain ⟨lexeme, others, rfl⟩ := List.exists_cons_of_ne_nil some
  obtain ⟨c, rest, same⟩ := List.exists_cons_of_ne_nil (source_not_empty lexeme)
  have solid : Text.isBlank c = false :=
    (clean_solid clean).1 c (by rw [source_starts, same]; rfl)
  simp [sourceOf, same, Text.allBlank, solid]

/-- The statement of a run that cleaning leaves no blanks around, wherever it stands in a
script. -/
theorem segment_of_run {run : List Lexeme} (clean : IsClean (run.flatMap settle))
    (some : run.flatMap settle ≠ [])
    (kind : StatementKind.ofClean (cleanOf run) = .ok found) (start : Nat) :
    (Segment.ofRun start run).isBlank = false ∧
      Statement.ofSegment (Segment.ofRun start run) =
        .ok ⟨sourceOf run, cleanOf run, start, start + Text.byteLength (sourceOf run),
          Statement.numberMarkers 0 1 (markersOf 0 run), found⟩ := by
  obtain ⟨visible, starts⟩ := clean_not_blank clean some
  have trimmed := Text.trim_eq_self (clean_solid clean).1 (clean_solid clean).2
  rw [← clean_source] at visible starts trimmed
  constructor
  · rw [Segment.isBlank, Segment.ofRun, visible]
  · simp [Statement.ofSegment, Segment.ofRun, Segment.stop, trimmed, starts, kind]

/-- The statement of a clean text's segment, wherever it stands in a script. -/
theorem segment_clean (clean : IsClean lexemes) (some : lexemes ≠ [])
    (kind : StatementKind.ofClean (sourceOf lexemes) = .ok found) (start : Nat) :
    (Segment.ofRun start lexemes).isBlank = false ∧
      Statement.ofSegment (Segment.ofRun start lexemes) =
        .ok ⟨sourceOf lexemes, sourceOf lexemes, start,
          start + Text.byteLength (sourceOf lexemes),
          Statement.numberMarkers 0 1 (markersOf 0 lexemes), found⟩ := by
  have kept := settled_kept clean.settled
  rw [← clean_settled clean.settled] at kind
  have analysed := segment_of_run (kept.symm ▸ clean) (kept.symm ▸ some) kind start
  rwa [clean_settled clean.settled] at analysed

/-- A script of one segment that is not blank holds the statement of that segment. -/
theorem analyze_single {segment : Segment} (scanned : Segment.scan sql = .ok [segment])
    (visible : segment.isBlank = false) (analysed : Statement.ofSegment segment = .ok statement) :
    Script.split sql = .ok ⟨[statement]⟩ ∧ Statement.analyze sql = .ok statement := by
  have split : Script.split sql = .ok ⟨[statement]⟩ := by
    simp [Script.split, scanned, Script.ofSegments, visible, analysed, Statement.absorb, bind,
      Except.bind]
  exact ⟨split, by simp [Statement.analyze, split, bind, Except.bind]⟩

/-- Analysing a clean text finds that text, its markers, and nothing else. -/
theorem analyze_clean (clean : IsClean lexemes) (some : lexemes ≠ [])
    (kind : StatementKind.ofClean (sourceOf lexemes) = .ok found) :
    Statement.analyze (sourceOf lexemes) =
      .ok ⟨sourceOf lexemes, sourceOf lexemes, 0, Text.byteLength (sourceOf lexemes),
        Statement.numberMarkers 0 1 (markersOf 0 lexemes), found⟩ := by
  obtain ⟨visible, analysed⟩ := segment_clean clean some kind 0
  have scanned : Segment.scan (sourceOf lexemes) = .ok [Segment.ofRun 0 lexemes] := by
    simp [Segment.scan, clean_reads clean, settled_no_open_quote clean.settled,
      runs_single clean.single, Segment.ofRuns]
  rw [(analyze_single scanned visible analysed).2, Nat.zero_add]

end SqlWire.Cleaning
