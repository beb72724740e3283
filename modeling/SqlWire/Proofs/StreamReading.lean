import SqlWire.Proofs.BlockFraming

/-! What a reader of blocks hands out of a source that holds blocks and ends cleanly:
their plain bytes, in parts that the readings choose. -/
namespace SqlWire.StreamReading
open Transport BlockFraming

/-- Read with one buffer after the other: what each reading yields, and the reader
behind them. A reading is made also when one before it failed. -/
def readEach : List Nat → BlockReader → List (Except StreamFault Bytes) × BlockReader
  | [], reader => ([], reader)
  | count :: counts, reader =>
    let (result, reader) := reader.read count
    let (results, reader) := readEach counts reader
    (result :: results, reader)

/-- A reader that has not failed and whose source holds the blocks of these pieces
and ends cleanly behind them. -/
structure Serves (reader : BlockReader) (pieces : List Bytes) : Prop where
  sound : reader.failure = none
  source : ∃ source, reader.source = some source ∧ source.content = pieces.flatMap wire ∧
    source.ending = .clean
  fits : ∀ piece ∈ pieces, Fits piece
  admits : ∀ piece ∈ pieces, Admits reader.limit piece
  solid : ∀ piece ∈ pieces, piece ≠ []

/-- The plain bytes a reader has yet to hand out. -/
def left (reader : BlockReader) (pieces : List Bytes) : Bytes := reader.pending ++ pieces.flatten

/-- A pull takes what is pending, or a block if nothing is. It takes nothing only
where nothing is left. -/
theorem pull_serves (serves : Serves reader pieces) :
    ∃ plain after others, reader.pull = (.ok plain, after) ∧ Serves after others ∧
      after.pending = [] ∧ left reader pieces = plain ++ others.flatten ∧
      (plain = [] → others = []) ∧
      after.blocksRead + others.length = reader.blocksRead + pieces.length := by
  obtain ⟨source, opened, holds, clean⟩ := serves.source
  have steps : ∀ result, Transport.repeatFor BlockReader.pullStep
      ((bytesOf reader.deliveries).length + 2) reader = .inr result → reader.pull = result := by
    intro result found
    rw [BlockReader.pull, serves.sound, repeat_over_counts, found]
  cases pending : reader.pending with
  | cons b rest =>
    refine ⟨reader.pending, { reader with pending := [] }, pieces, steps _ ?_,
      ⟨serves.sound, serves.source, serves.fits, serves.admits, serves.solid⟩, rfl, rfl, ?_, rfl⟩
    · simp [repeatFor, BlockReader.pullStep, pending]
    · intro none
      cases pending.symm.trans none
  | nil =>
    cases pieces with
    | nil =>
      obtain ⟨rest, ended, done, stays⟩ := block_ended holds clean reader.limit
      refine ⟨[], { reader with source := some rest }, [], steps _ ?_,
        ⟨serves.sound, ⟨rest, rfl, done, stays⟩, serves.fits, serves.admits, serves.solid⟩,
        pending, ?_, fun _ => rfl, rfl⟩
      · simp [repeatFor, BlockReader.pullStep, pending, opened, ended]
      · rw [left, pending, List.nil_append]
    | cons piece others =>
      obtain ⟨fits, fitsOthers⟩ := List.forall_mem_cons.mp serves.fits
      obtain ⟨admits, admitsOthers⟩ := List.forall_mem_cons.mp serves.admits
      obtain ⟨solid, solidOthers⟩ := List.forall_mem_cons.mp serves.solid
      rw [List.flatMap_cons] at holds
      obtain ⟨rest, block, behind, stays⟩ := block_reads fits admits holds
      refine ⟨piece,
        { reader with source := some rest, pending := [], blocksRead := reader.blocksRead + 1 },
        others, steps _ ?_,
        ⟨serves.sound, ⟨rest, rfl, behind, stays.trans clean⟩, fitsOthers, admitsOthers,
          solidOthers⟩,
        rfl, ?_, fun none => absurd none solid, ?_⟩
      · simp [repeatFor, BlockReader.pullStep, pending, opened, block, solid]
      · rw [left, pending]
        rfl
      · show reader.blocksRead + 1 + others.length = reader.blocksRead + (others.length + 1)
        omega

/-- A reading hands out the next bytes, at least one while there are any. -/
theorem read_serves (serves : Serves reader pieces) (positive : 0 < count) :
    ∃ out after others, reader.read count = (.ok out, after) ∧ Serves after others ∧
      out.length ≤ count ∧ left reader pieces = out ++ left after others ∧
      (out = [] → left reader pieces = []) ∧
      after.blocksRead + others.length = reader.blocksRead + pieces.length := by
  obtain ⟨plain, after, others, pulled, stays, empty, parts, ended, counted⟩ := pull_serves serves
  refine ⟨plain.take count, { after with pending := plain.drop count }, others, ?_,
    ⟨stays.sound, stays.source, stays.fits, stays.admits, stays.solid⟩, List.length_take_le ..,
    ?_, ?_, counted⟩
  · rw [BlockReader.read, serves.sound]
    simp only [Nat.ne_of_gt positive, ↓reduceIte, pulled]
  · rw [parts, left, ← List.append_assoc, List.take_append_drop]
  · intro none
    have nothing : plain = [] := by
      cases plain with
      | nil => rfl
      | cons b rest =>
        rw [List.take_eq_nil_iff] at none
        rcases none with zero | none
        · exact absurd zero (Nat.ne_of_gt positive)
        · exact none
    rw [parts, nothing, ended nothing]
    rfl

/-- Where nothing is left no block is left either. -/
theorem serves_ended (serves : Serves reader pieces) (ended : left reader pieces = []) :
    pieces = [] := by
  cases pieces with
  | nil => rfl
  | cons piece others =>
    have front : piece ++ others.flatten = [] := (List.append_eq_nil_iff.mp ended).2
    have nothing := (List.append_eq_nil_iff.mp front).1
    exact absurd nothing (serves.solid piece List.mem_cons_self)

/-- One reading after the other hands out what is left, and a reading yields no bytes
exactly when those before it handed out everything. -/
theorem read_each_serves (serves : Serves reader pieces) (positive : ∀ count ∈ counts, 0 < count) :
    ∃ outs after others, readEach counts reader = (outs.map .ok, after) ∧ Serves after others ∧
      left reader pieces = outs.flatten ++ left after others ∧
      (∀ asked ∈ outs.zip counts, asked.1.length ≤ asked.2) ∧
      (∀ front out behind, outs = front ++ out :: behind →
        (out = [] ↔ front.flatten = left reader pieces)) ∧
      (left after others).length ≤ (left reader pieces).length - counts.length ∧
      after.blocksRead + others.length = reader.blocksRead + pieces.length := by
  induction counts generalizing reader pieces with
  | nil =>
    refine ⟨[], reader, pieces, rfl, serves, rfl, ?_, ?_, Nat.le_refl _, rfl⟩
    · intro asked member
      cases member
    · intro front out behind parts
      cases List.append_ne_nil_of_right_ne_nil front (List.cons_ne_nil out behind) parts.symm
  | cons count counts ih =>
    obtain ⟨here, others⟩ := List.forall_mem_cons.mp positive
    obtain ⟨out, middle, rest, result, stays, most, parts, ended, counted⟩ :=
      read_serves serves here
    obtain ⟨outs, after, stop, results, staysOn, partsOn, mostOn, endedOn, shorter, countedOn⟩ :=
      ih stays others
    refine ⟨out :: outs, after, stop, ?_, staysOn, ?_, ?_, ?_, ?_, countedOn.trans counted⟩
    · rw [readEach, result]
      simp only [results]
      rfl
    · rw [parts, partsOn, List.flatten_cons, List.append_assoc]
    · exact List.forall_mem_cons.mpr ⟨most, mostOn⟩
    · intro front next behind split
      cases front with
      | nil =>
        obtain ⟨rfl, rfl⟩ := List.cons.inj split
        constructor
        · intro none
          exact (ended none).symm
        · intro none
          exact (List.append_eq_nil_iff.mp (parts.symm.trans none.symm)).1
      | cons first front =>
        obtain ⟨rfl, rfl⟩ := List.cons.inj split
        rw [endedOn front next behind rfl, List.flatten_cons, parts, List.append_cancel_left_eq]
    · rw [List.length_cons]
      cases out with
      | nil =>
        rw [parts, List.nil_append] at ended
        rw [ended rfl] at shorter
        exact Nat.le_trans shorter (by simp)
      | cons b bytes =>
        rw [parts, List.length_append, List.length_cons]
        omega

/-- A reader whose source holds the blocks of plain bytes hands these out, and has read
every block once it has handed out everything. -/
theorem blocks_read_back {plains : List Bytes} (fits : ∀ plain ∈ plains, Fits plain)
    (admits : ∀ plain ∈ plains, Admits limit plain) (solid : ∀ plain ∈ plains, plain ≠ [])
    {source : Source} (holds : source.content = plains.flatMap wire)
    (clean : source.ending = .clean) (positive : ∀ count ∈ counts, 0 < count) :
    ∃ outs reader rest,
      readEach counts (BlockReader.ofSource source limit) = (outs.map .ok, reader) ∧
      plains.flatten = outs.flatten ++ rest ∧
      (∀ asked ∈ outs.zip counts, asked.1.length ≤ asked.2) ∧
      (∀ front out behind, outs = front ++ out :: behind →
        (out = [] ↔ front.flatten = plains.flatten)) ∧
      (plains.flatten.length ≤ counts.length → rest = []) ∧
      (rest = [] → reader.blocksRead = plains.length) := by
  have serves : Serves (BlockReader.ofSource source limit) plains :=
    ⟨rfl, ⟨source, rfl, holds, clean⟩, fits, admits, solid⟩
  have whole : left (BlockReader.ofSource source limit) plains = plains.flatten := rfl
  obtain ⟨outs, reader, others, result, stays, split, most, ended, shorter, counted⟩ :=
    read_each_serves serves positive
  rw [whole] at split ended shorter
  refine ⟨outs, reader, left reader others, result, split, most, ended, ?_, ?_⟩
  · intro enough
    rw [← List.length_eq_zero_iff]
    omega
  · intro everything
    rw [serves_ended stays everything] at counted
    exact counted.trans (Nat.zero_add _)

end SqlWire.StreamReading
