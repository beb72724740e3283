import SqlWire.Rows.Lines
import SqlWire.Proofs.StreamDecoding

/-! Lines out of a stream of bytes. What a feed has yet to deliver is a content before
a stop, and this alone decides the lines that come out of it: neither the deliveries of
the source nor the borders of the blocks show in them. -/
namespace SqlWire.LineReading
open Transport StreamReading StreamDecoding

/-! ## Feeds -/

/-- A feed that delivers these bytes and then stops, and how many pulls at most find
bytes. -/
inductive Delivers : Feed → (pulls : Nat) → (content : Bytes) → Option StreamFault → Prop where
  | plain (source : Source) :
      Delivers (.plain source) source.content.length source.content (endOf source.ending)
  | blocks (reads : Reads reader plains stop) :
      Delivers (.blocks reader) (ahead reader plains) (left reader plains) stop

private theorem pull_from_takes (deliveries : List Delivery) :
    (Source.pullFrom deliveries).1 ++ bytesOf (Source.pullFrom deliveries).2 =
        bytesOf deliveries ∧
      ((Source.pullFrom deliveries).1 = [] → (Source.pullFrom deliveries).2 = []) := by
  induction deliveries with
  | nil => exact ⟨rfl, fun _ => rfl⟩
  | cons delivery rest ih =>
    cases delivery with
    | interrupted => exact ih
    | bytes run =>
      cases run with
      | nil => exact ih
      | cons b run => exact ⟨rfl, by simp [Source.pullFrom]⟩

/-- A pull of a source takes the next bytes there are, or meets the end. -/
theorem pull_source (source : Source) :
    (∃ more after, (Feed.plain source).pull = (.ok more, .plain after) ∧ more ≠ [] ∧
        source.content = more ++ after.content ∧ after.ending = source.ending) ∨
      source.content = [] ∧ ∃ after, (Feed.plain source).pull =
        (stopped (endOf source.ending), .plain after) ∧ after.content = [] ∧
          after.ending = source.ending := by
  obtain ⟨deliveries, ending⟩ := source
  obtain ⟨parts, done⟩ := pull_from_takes deliveries
  cases pulled : Source.pullFrom deliveries with
  | mk more rest =>
    rw [pulled] at parts done
    by_cases nothing : more = []
    · obtain rfl := nothing
      obtain rfl := done rfl
      refine .inr ⟨parts.symm, ⟨[], ending⟩, ?_, rfl, rfl⟩
      cases ending <;> simp [Feed.pull, Source.pull, pulled, stopped, endOf, Except.mapError]
    · refine .inl ⟨more, ⟨rest, ending⟩, ?_, nothing, parts.symm, rfl⟩
      simp [Feed.pull, Source.pull, pulled, nothing, Except.mapError]

/-- A pull takes the next bytes of a feed, or meets its stop and finds it again when it
is the clean end. -/
theorem pull_delivers (delivers : Delivers feed pulls content stop) :
    (∃ more after fewer rest, feed.pull = (.ok more, after) ∧ more ≠ [] ∧
        content = more ++ rest ∧ Delivers after fewer rest stop ∧ fewer < pulls) ∨
      content = [] ∧ ∃ after, feed.pull = (stopped stop, after) ∧
        (stop = none → ∃ fewer, Delivers after fewer [] none) := by
  cases delivers with
  | plain source =>
    rcases pull_source source with
      ⟨more, after, pulled, some, parts, ending⟩ | ⟨nothing, after, pulled, done, ending⟩
    · have stays := Delivers.plain after
      rw [ending] at stays
      refine .inl ⟨more, .plain after, _, _, pulled, some, parts, stays, ?_⟩
      have := List.length_pos_iff.mpr some
      rw [parts, List.length_append]
      omega
    · refine .inr ⟨nothing, .plain after, pulled, fun clean => ?_⟩
      have stays := Delivers.plain after
      rw [done, ending, clean] at stays
      exact ⟨_, stays⟩
  | @blocks reader plains _ reads =>
    rcases pull_decodes reads with
      ⟨plain, after, others, pulled, some, empty, stays, parts, less⟩ |
        ⟨nothing, after, pulled, ended⟩
    · refine .inl ⟨plain, .blocks after, _, _, by rw [Feed.pull, pulled], some, ?_,
        .blocks stays, ?_⟩
      · rw [parts, left, empty, List.nil_append]
      · rw [ahead, if_pos empty]
        exact less
    · refine .inr ⟨nothing, .blocks after, by rw [Feed.pull, pulled], ?_⟩
      rintro rfl
      have delivers := Delivers.blocks ended.1
      rw [left, ended.2] at delivers
      exact ⟨_, delivers⟩

/-- The source has enough bytes for all pulls that find some, but for one of bytes that
are at hand. -/
theorem pulls_bound (delivers : Delivers feed pulls content stop) :
    pulls ≤ (bytesOf feed.deliveries).length + 1 := by
  cases delivers with
  | plain source => exact Nat.le_succ _
  | @blocks reader plains _ reads =>
    have := reads_length reads
    show ahead reader plains ≤ (bytesOf reader.deliveries).length + 1
    rw [ahead]
    split <;> omega

/-! ## Lines -/

/-- The next line of a content before a stop, and the content behind it. What stands
unterminated before the clean end is a last line. -/
def nextLine (content : Bytes) (stop : Option StreamFault) :
    Except StreamFault (Option Bytes × Bytes) :=
  match Lines.cut? content with
  | some (line, rest) => .ok (some (Lines.dropReturn line), rest)
  | none =>
    match stop with
    | none => .ok (if content.isEmpty then none else some content, [])
    | some fault => .error fault

/-- The content before a stop that lines still come out of. -/
def Holds (lines : Lines) (content : Bytes) (stop : Option StreamFault) : Prop :=
  ∃ pulls behind, Delivers lines.feed pulls behind stop ∧ content = lines.pending ++ behind

/-- What reading a line of a content yields. -/
def Yields (result : Except StreamFault (Option Bytes) × Lines) (content : Bytes)
    (stop : Option StreamFault) : Prop :=
  match nextLine content stop with
  | .ok (line, rest) => result.1 = .ok line ∧ Holds result.2 rest stop
  | .error fault => result.1 = .error fault

private theorem cut_append (front behind : Bytes) :
    Lines.cut? (front ++ behind) =
      match Lines.cut? front with
      | some (line, rest) => some (line, rest ++ behind)
      | none => (Lines.cut? behind).map fun (line, rest) => (front ++ line, rest) := by
  induction front with
  | nil =>
    simp [Lines.cut?]
  | cons b front ih =>
    rw [List.cons_append, Lines.cut?, Lines.cut?]
    by_cases ends : b = Lines.lineFeed
    · rw [if_pos ends, if_pos ends]
    · rw [if_neg ends, if_neg ends, ih]
      cases Lines.cut? front with
      | some found => rfl
      | none => simp [Function.comp_def]

/-- Reading on for a line that has begun: it ends in the bytes of some pull, or the stop
is met. -/
theorem steps_yield (delivers : Delivers feed pulls content stop)
    (begun : Lines.cut? found.reverse.flatten = none) (enough : pulls < count) :
    ∃ result, repeatFor Lines.nextStep count (found, feed) = .inr result ∧
      Yields result (found.reverse.flatten ++ content) stop := by
  induction count generalizing feed pulls content found with
  | zero => cases enough
  | succ count ih =>
    rcases pull_delivers delivers with
      ⟨more, after, fewer, rest, pulled, some, rfl, stays, less⟩ | ⟨rfl, after, pulled, ended⟩
    · have grown : Lines.cut? (more :: found).reverse.flatten =
          (Lines.cut? more).map fun (line, rest) => (found.reverse.flatten ++ line, rest) := by
        rw [List.reverse_cons, List.flatten_append, List.flatten_singleton, cut_append, begun]
      cases cut : Lines.cut? more with
      | none =>
        rw [cut] at grown
        obtain ⟨result, steps, yields⟩ := ih stays grown (by omega)
        refine ⟨result, ?_, ?_⟩
        · rw [repeatFor, Lines.nextStep, pulled]
          simpa [cut] using steps
        · simpa using yields
      | some ends =>
        obtain ⟨line, behind⟩ := ends
        refine ⟨(.ok (.some (Lines.dropReturn ((line :: found).reverse.flatten))), ⟨behind, after⟩),
          ?_, ?_⟩
        · rw [repeatFor, Lines.nextStep, pulled]
          simp [cut]
        · rw [Yields, nextLine.eq_def, cut_append, begun, cut_append, cut]
          exact ⟨by simp, fewer, rest, stays, rfl⟩
    · rw [List.append_nil]
      cases stop with
      | some fault =>
        refine ⟨_, by rw [repeatFor, Lines.nextStep, pulled]; rfl, ?_⟩
        rw [Yields, nextLine.eq_def, begun]
      | none =>
        obtain ⟨fewer, stays⟩ := ended rfl
        refine ⟨_, by rw [repeatFor, Lines.nextStep, pulled]; rfl, ?_⟩
        rw [Yields, nextLine.eq_def, begun]
        exact ⟨rfl, fewer, [], stays, rfl⟩

/-- The next line is that of the content, and the content behind it is left. -/
theorem next_yields (holds : Holds lines content stop) : Yields lines.next content stop := by
  obtain ⟨pulls, behind, delivers, rfl⟩ := holds
  cases cut : Lines.cut? lines.pending with
  | some ends =>
    obtain ⟨line, rest⟩ := ends
    rw [Yields, nextLine.eq_def, cut_append, cut, Lines.next, cut]
    exact ⟨rfl, pulls, behind, delivers, rfl⟩
  | none =>
    have begun : Lines.cut? [lines.pending].reverse.flatten = none := by simpa using cut
    have enough := Nat.lt_succ_of_le (pulls_bound delivers)
    obtain ⟨result, steps, yields⟩ := steps_yield delivers begun enough
    rw [Lines.next, cut]
    simp only [repeat_over_counts]
    rw [steps]
    simpa using yields

end SqlWire.LineReading
