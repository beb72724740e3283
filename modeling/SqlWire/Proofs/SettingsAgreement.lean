import SqlWire.CommandLine.Run
import SqlWire.Proofs.Corruption
import SqlWire.Proofs.Emissions
import SqlWire.Proofs.Lz4Size

/-! Whether settings can read what they write. The block size bounds the plain bytes of a
block, the limit of a reader its payload as well; and a payload may be longer than the plain
bytes it stands for. So a body is read back just when no payload of it is over the limit,
which nothing in the settings ensures but a limit that leaves room for the worst payload. -/
namespace SqlWire.SettingsAgreement
open Transport BlockFraming StreamWriting StreamReading StreamDecoding Corruption Emissions
open Lz4Size
open CommandLine (compressAll)

/-! ## Writing -/

/-- Full blocks that were written took the first pieces of what was pending, and each of
them fits. -/
theorem full_fits {writer : BlockWriter} (done : (writer.emitFull count).1 = none)
    (full : count * writer.blockSize ≤ writer.pending.length) :
    ∃ front, cut writer.blockSize writer.pending =
        front ++ cut writer.blockSize (writer.emitFull count).2.pending ∧
      ∀ piece ∈ front, Fits piece := by
  induction count generalizing writer with
  | zero => exact ⟨[], rfl, by simp⟩
  | succ count ih =>
    rw [Nat.succ_mul] at full
    have first := cut_full writer.blockSize_pos (Nat.le_trans (Nat.le_add_left ..) full)
    rw [BlockWriter.emitFull] at done ⊢
    rcases emit_cases writer writer.blockSize with
      ⟨sink, fits, result, -⟩ | ⟨fault, sink, result⟩
    · rw [result] at done ⊢
      have more : count * writer.blockSize ≤ (writer.pending.drop writer.blockSize).length := by
        rw [List.length_drop]
        omega
      obtain ⟨front, parts, others⟩ := ih done more
      refine ⟨writer.pending.take writer.blockSize :: front, ?_,
        List.forall_mem_cons.mpr ⟨fits, others⟩⟩
      rw [first, parts, List.cons_append]
    · rw [result] at done
      cases done

/-- A flush that succeeds has written what was pending as one block. -/
theorem flush_fits {writer : BlockWriter} (done : writer.flush.1 = none)
    (short : writer.pending.length < writer.blockSize) :
    ∀ piece ∈ cut writer.blockSize writer.pending, Fits piece := by
  cases pending : writer.pending with
  | nil => simp [cut_nil]
  | cons b rest =>
    rw [← pending]
    have some : writer.pending ≠ [] := pending ▸ List.cons_ne_nil b rest
    have present : writer.pending.isEmpty = false := List.isEmpty_eq_false_iff.mpr some
    rw [cut_short some (Nat.le_of_lt short), List.forall_mem_singleton]
    rcases emit_cases writer writer.pending.length with ⟨sink, fits, -, -⟩ | ⟨fault, sink, result⟩
    · rwa [List.take_length] at fits
    · simp [BlockWriter.flush, present, result] at done

/-- A write that succeeds into an empty buffer leaves pieces behind that are cut off what was
handed over, and all before them fit. -/
theorem write_fits {writer : BlockWriter} (empty : writer.pending = [])
    (done : (writer.write data).1 = none) :
    ∃ front, cut writer.blockSize data =
        front ++ cut writer.blockSize (writer.write data).2.pending ∧
      ∀ piece ∈ front, Fits piece := by
  rw [BlockWriter.write, empty, List.nil_append] at done ⊢
  exact full_fits done (Nat.div_mul_le_self ..)

section Compressing
variable {size : Nat} {plain : Bytes}

private theorem block_size_positive (positive : 0 < size) :
    (BlockWriter.ofSink Sink.empty size).blockSize = size :=
  Nat.max_eq_right positive

/-- Compressing is a write and a flush that both succeed. -/
theorem compress_all_cases (done : compressAll size plain = .ok (stream, blocks)) :
    ∃ middle after,
      (BlockWriter.ofSink Sink.empty size).writeAll plain = (none, middle) ∧
      middle.flush = (none, after) ∧ stream = after.sink.taken ∧ blocks = after.blocksWritten := by
  rw [compressAll] at done
  cases written : (BlockWriter.ofSink Sink.empty size).writeAll plain with
  | mk fault middle =>
    rw [written] at done
    cases fault with
    | some fault => cases done
    | none =>
      cases flushed : middle.flush with
      | mk fault after =>
        simp only [flushed] at done
        cases fault with
        | some fault => cases done
        | none =>
          cases done
          exact ⟨middle, after, rfl, flushed, rfl, rfl⟩

/-- Compressing succeeds only where all pieces fit. -/
theorem compressed_fits (positive : 0 < size)
    (done : compressAll size plain = .ok (stream, blocks)) :
    ∀ piece ∈ cut size plain, Fits piece := by
  cases plain with
  | nil => simp [cut_nil]
  | cons b rest =>
    obtain ⟨middle, after, written, flushed, -, -⟩ := compress_all_cases done
    have wrote : (BlockWriter.ofSink Sink.empty size).write (b :: rest) = (none, middle) := written
    have succeeded := congrArg Prod.fst wrote
    obtain ⟨front, parts, fits⟩ := write_fits rfl succeeded
    have short := write_leaves succeeded
    have width := (reaches_keeps
      (write_reaches (b :: rest) (BlockWriter.ofSink Sink.empty size))).2.2
    rw [wrote] at parts short width
    rw [← width] at parts short
    rw [block_size_positive positive] at width
    rw [← width, parts, List.forall_mem_append]
    exact ⟨fits, flush_fits (congrArg Prod.fst flushed) short⟩

/-- Pieces that fit are written as blocks, one behind the other. -/
theorem pieces_compress (positive : 0 < size) (fits : ∀ piece ∈ cut size plain, Fits piece) :
    compressAll size plain =
      .ok ((cut size plain).flatMap wire, (cut size plain).length) := by
  have parts : pieces size [] [.writeAll plain] = cut size plain := List.append_nil _
  have width := block_size_positive positive
  have nothing : (BlockWriter.ofSink Sink.empty size).pending = [] := rfl
  have willing : Willing Sink.empty := ⟨by simp [Sink.empty], by simp [Sink.empty]⟩
  have short : (BlockWriter.ofSink Sink.empty size).pending.length <
      (BlockWriter.ofSink Sink.empty size).blockSize := BlockWriter.blockSize_pos _
  rw [← parts] at fits
  rw [← nothing, ← width] at fits
  obtain ⟨after, results, wrote⟩ := run_finishes willing short [.writeAll plain] fits
  rw [width, nothing, parts] at wrote
  have taken : after.sink.taken = (cut size plain).flatMap wire :=
    wrote.taken.trans (List.nil_append _)
  have count : after.blocksWritten = (cut size plain).length :=
    wrote.count.trans (Nat.zero_add _)
  cases written : (BlockWriter.ofSink Sink.empty size).writeAll plain with
  | mk fault middle =>
    cases flushed : middle.flush with
    | mk again last =>
      simp only [List.cons_append, List.nil_append, run, Call.perform, written, flushed] at results
      obtain ⟨reports, rfl⟩ := Prod.mk.inj results
      obtain ⟨rfl, others⟩ := List.cons.inj reports
      obtain ⟨rfl, -⟩ := List.cons.inj others
      rw [compressAll, written]
      simp only [flushed, taken, count]

end Compressing

/-! ## Reading -/

private theorem wire_front (piece : Bytes) :
    wire piece = (frontWith (Digest.checksum (body piece)) piece (checksum_length _)).bytes ++
      Lz4.compress piece :=
  (List.append_assoc ..).symm

/-- A block that fits and is over the limit stops the reader in front of it. -/
theorem over_limit_stops (fits : Fits piece) (exceeds : ¬ Admits limit piece) (rest : Bytes) :
    Stops limit .clean (wire piece ++ rest)
      (some (.block (.overLimit piece.length (Lz4.compress piece).length limit))) := by
  rw [wire_front, List.append_assoc]
  refine .overLimit (front_with_declares fits (checksum_length _)) fun within => ?_
  exact exceeds ⟨within.payload, within.plain⟩

/-- Blocks that are all admitted are handed out to the clean end. -/
theorem admitted_read_back {pieces : List Bytes} (fits : ∀ piece ∈ pieces, Fits piece)
    (admits : ∀ piece ∈ pieces, Admits limit piece) :
    HandsOut limit (pieces.flatMap wire) pieces.flatten none := by
  have chained := wires_chain fits admits
  have whole := chain_hands_out chained (.ended : Stops limit .clean [] (endOf .clean))
  rwa [List.append_nil] at whole

/-- Blocks are handed out up to the first that is over the limit. -/
theorem over_limit_fails {front behind : List Bytes}
    (fits : ∀ other ∈ front ++ piece :: behind, Fits other)
    (admits : ∀ other ∈ front, Admits limit other) (exceeds : ¬ Admits limit piece) :
    HandsOut limit ((front ++ piece :: behind).flatMap wire) front.flatten
      (some (.block (.overLimit piece.length (Lz4.compress piece).length limit))) := by
  obtain ⟨fitsFront, fitsBehind⟩ := List.forall_mem_append.mp fits
  have here := fitsBehind piece List.mem_cons_self
  rw [List.flatMap_append, List.flatMap_cons]
  exact chain_hands_out (wires_chain fitsFront admits) (over_limit_stops here exceeds _)

private theorem clean_reports : ∀ result ∈ reports none count, result = .ok [] := by
  intro result member
  cases count with
  | zero => cases member
  | succ count =>
    rcases List.mem_cons.mp member with rfl | again
    · rfl
    · exact List.eq_of_mem_replicate again

/-- Bytes that are handed out to the clean end are not handed out up to a fault. -/
theorem ends_one_way (ends : HandsOut limit content plain none)
    (fails : HandsOut limit content front (some fault)) : False := by
  let counts := List.replicate (front.length + 1) 1
  have positive : ∀ count ∈ counts, 0 < count := by
    intro count member
    rw [List.eq_of_mem_replicate member]
    exact Nat.zero_lt_one
  have holds : (Source.ofBytes content).content = content := by
    simp [Source.ofBytes, Source.content]
  obtain ⟨outs, results, -⟩ := ends (Source.ofBytes content) counts holds rfl positive
  obtain ⟨others, failed, -, -, -, -, enough⟩ :=
    fails (Source.ofBytes content) counts holds rfl positive
  have stops : others.length < counts.length := by
    apply enough
    rw [List.length_replicate]
    exact Nat.lt_succ_self _
  obtain ⟨more, room⟩ := Nat.exists_eq_succ_of_ne_zero (Nat.sub_ne_zero_of_lt stops)
  have reported : Except.error fault ∈ outs.map .ok ++ reports none (counts.length - outs.length) := by
    rw [← results, failed, room]
    exact List.mem_append_right _ List.mem_cons_self
  rcases List.mem_append.mp reported with read | stopped
  · obtain ⟨out, -, same⟩ := List.mem_map.mp read
    cases same
  · cases clean_reports _ stopped

/-! ## Sizes and limits -/

/-- All blocks are admitted, or there is a first one that is not. -/
theorem admitted_or_over (limit : Nat) (pieces : List Bytes) :
    (∀ piece ∈ pieces, Admits limit piece) ∨ ∃ front piece behind,
      pieces = front ++ piece :: behind ∧ (∀ other ∈ front, Admits limit other) ∧
        ¬ Admits limit piece := by
  induction pieces with
  | nil => exact .inl (by simp)
  | cons first pieces ih =>
    by_cases here : Admits limit first
    · rcases ih with all | ⟨front, piece, behind, rfl, admits, exceeds⟩
      · exact .inl (List.forall_mem_cons.mpr ⟨here, all⟩)
      · exact .inr ⟨first :: front, piece, behind, rfl,
          List.forall_mem_cons.mpr ⟨here, admits⟩, exceeds⟩
    · exact .inr ⟨[], first, pieces, rfl, by simp, here⟩

section Sizes
variable {size limit : Nat} {plain : Bytes}

theorem piece_fits_iff (positive : 0 < size) (bounded : size ≤ Block.maxLength)
    (member : piece ∈ cut size plain) :
    Fits piece ↔ (Lz4.compress piece).length + Block.headerLength ≤ Block.maxLength :=
  ⟨Fits.payload, fun small =>
    ⟨small, Nat.le_trans (cut_bounded positive plain piece member) bounded⟩⟩

theorem piece_admitted_iff (positive : 0 < size) (ordered : size ≤ limit)
    (member : piece ∈ cut size plain) :
    Admits limit piece ↔ (Lz4.compress piece).length ≤ limit :=
  ⟨Admits.payload, fun small =>
    ⟨small, Nat.le_trans (cut_bounded positive plain piece member) ordered⟩⟩

/-- Compressing succeeds just where all payloads fit a header. -/
theorem compresses_iff (positive : 0 < size) (bounded : size ≤ Block.maxLength) :
    (∃ written, compressAll size plain = .ok written) ↔
      ∀ piece ∈ cut size plain,
        (Lz4.compress piece).length + Block.headerLength ≤ Block.maxLength := by
  constructor
  · rintro ⟨⟨stream, blocks⟩, done⟩ piece member
    rw [← piece_fits_iff positive bounded member]
    exact compressed_fits positive done piece member
  · intro small
    refine ⟨_, pieces_compress positive fun piece member => ?_⟩
    rw [piece_fits_iff positive bounded member]
    exact small piece member

/-- What was compressed are the blocks of its pieces. -/
theorem compressed_stream (positive : 0 < size)
    (done : compressAll size plain = .ok (stream, blocks)) :
    stream = (cut size plain).flatMap wire ∧ blocks = (cut size plain).length := by
  have written := pieces_compress positive (compressed_fits positive done)
  rw [done] at written
  exact Prod.mk.inj (Except.ok.inj written)

/-- A payload that is the first one over the limit is reported behind the pieces before it. -/
theorem over_limit_reported (positive : 0 < size) (ordered : size ≤ limit)
    (done : compressAll size plain = .ok (stream, blocks))
    (parts : cut size plain = front ++ piece :: behind)
    (within : ∀ other ∈ front, (Lz4.compress other).length ≤ limit)
    (exceeds : limit < (Lz4.compress piece).length) :
    HandsOut limit stream front.flatten
      (some (.block (.overLimit piece.length (Lz4.compress piece).length limit))) := by
  have fits := compressed_fits positive done
  obtain ⟨rfl, -⟩ := compressed_stream positive done
  have admits : ∀ other ∈ front, Admits limit other := by
    intro other member
    rw [piece_admitted_iff positive ordered (parts ▸ List.mem_append_left _ member)]
    exact within other member
  rw [parts] at fits ⊢
  exact over_limit_fails fits admits fun admitted => Nat.not_lt.mpr admitted.payload exceeds

/-- What was compressed is read back just where no payload is over the limit. -/
theorem reads_back_iff (positive : 0 < size) (ordered : size ≤ limit)
    (done : compressAll size plain = .ok (stream, blocks)) :
    HandsOut limit stream plain none ↔
      ∀ piece ∈ cut size plain, (Lz4.compress piece).length ≤ limit := by
  have fits := compressed_fits positive done
  obtain ⟨rfl, -⟩ := compressed_stream positive done
  have whole := cut_flatten size plain
  constructor
  · intro ends
    rcases admitted_or_over limit (cut size plain) with
      all | ⟨front, piece, behind, parts, admits, exceeds⟩
    · exact fun piece member => (all piece member).payload
    · rw [parts] at ends fits
      exact (ends_one_way ends (over_limit_fails fits admits exceeds)).elim
  · intro small
    have admits : ∀ piece ∈ cut size plain, Admits limit piece := by
      intro piece member
      rw [piece_admitted_iff positive ordered member]
      exact small piece member
    have read := admitted_read_back fits admits
    rwa [whole] at read

/-- No payload of a piece is longer than the worst one of the block size. -/
theorem piece_small (positive : 0 < size) (member : piece ∈ cut size plain) :
    (Lz4.compress piece).length ≤ worst size :=
  Nat.le_trans (compress_small piece) (worst_grows (cut_bounded positive plain piece member))

end Sizes

/-! ## Settings -/

private theorem accepted_bounds (accepted : Settings.ofText text = .ok settings) :
    0 < settings.blockSize ∧ settings.blockSize ≤ Block.maxLength ∧ 0 < settings.readLimit := by
  rw [Settings.ofText] at accepted
  cases read : (Toml.read? text).bind Settings.ofDocument? with
  | none =>
    rw [read] at accepted
    cases accepted
  | some found =>
    simp only [read, Settings.check] at accepted
    split at accepted
    · cases accepted
    split at accepted
    · cases accepted
    split at accepted
    · cases accepted
    cases accepted
    exact ⟨by omega, by omega, by omega⟩

/-- What accepted settings write and read, where the block size is not over the limit of
reading. A body is written just when the payload of each of its pieces fits a header; what is
written is read back just when no payload is over the limit. Otherwise the pieces before the
first such payload are handed out, and then the reader reports it. A limit that leaves room
for the worst payload of the block size is never exceeded. -/
theorem accepted_settings_read_back (accepted : Settings.ofText text = .ok settings)
    (ordered : settings.blockSize ≤ settings.readLimit) (plain : Bytes) :
    let pieces := cut settings.blockSize plain
    let payload := fun piece : Bytes => (Lz4.compress piece).length
    ((∃ written, compressAll settings.blockSize plain = .ok written) ↔
      ∀ piece ∈ pieces, payload piece + Block.headerLength ≤ Block.maxLength) ∧
    (∀ stream blocks, compressAll settings.blockSize plain = .ok (stream, blocks) →
      blocks = pieces.length ∧
      (HandsOut settings.readLimit stream plain none ↔
        ∀ piece ∈ pieces, payload piece ≤ settings.readLimit) ∧
      ∀ front piece behind, pieces = front ++ piece :: behind →
        (∀ other ∈ front, payload other ≤ settings.readLimit) →
        settings.readLimit < payload piece →
        HandsOut settings.readLimit stream front.flatten
          (some (.block (.overLimit piece.length (payload piece) settings.readLimit)))) ∧
    (worst settings.blockSize ≤ settings.readLimit →
      worst settings.blockSize + Block.headerLength ≤ Block.maxLength →
      ∃ stream blocks, compressAll settings.blockSize plain = .ok (stream, blocks) ∧
        HandsOut settings.readLimit stream plain none) := by
  intro pieces payload
  obtain ⟨positive, bounded, -⟩ := accepted_bounds accepted
  refine ⟨compresses_iff positive bounded, fun stream blocks done => ?_, fun room wide => ?_⟩
  · refine ⟨(compressed_stream positive done).2, reads_back_iff positive ordered done, ?_⟩
    intro front piece behind parts within exceeds
    exact over_limit_reported positive ordered done parts within exceeds
  · have small : ∀ piece ∈ pieces, payload piece ≤ worst settings.blockSize :=
      fun piece member => piece_small positive member
    obtain ⟨⟨stream, blocks⟩, done⟩ := (compresses_iff positive bounded).mpr
      fun piece member => Nat.le_trans (Nat.add_le_add_right (small piece member) _) wide
    refine ⟨stream, blocks, done, (reads_back_iff positive ordered done).mpr ?_⟩
    exact fun piece member => Nat.le_trans (small piece member) room

/-- Room for one byte more than a block has is enough for blocks of four bytes, whatever they
hold. -/
theorem roomy_settings_read_back :
    let text := "[codec]\nmax_block_size = 4\nread_max_block_size = 5\n".toList
    let settings : Settings := { blockSize := 4, readLimit := 5 }
    Settings.ofText text = .ok settings ∧ settings.blockSize ≤ settings.readLimit ∧
      ∃ stream blocks, compressAll settings.blockSize [7, 1, 8, 2, 8, 1] = .ok (stream, blocks) ∧
        HandsOut settings.readLimit stream [7, 1, 8, 2, 8, 1] none := by
  intro text settings
  have accepted : Settings.ofText text = .ok settings := by decide +kernel
  have ordered : settings.blockSize ≤ settings.readLimit := by decide
  obtain ⟨-, -, roomy⟩ := accepted_settings_read_back accepted ordered [7, 1, 8, 2, 8, 1]
  exact ⟨accepted, ordered, roomy (by decide) (by decide)⟩

/-- A limit that is no less than the block size need not be enough: nothing repeats in these
twelve bytes, a table of one row, and so their payload has thirteen. -/
theorem unrepetitive_body_is_refused :
    let text := "[codec]\nmax_block_size = 12\nread_max_block_size = 12\n".toList
    let settings : Settings := { blockSize := 12, readLimit := 12 }
    let body := Text.toUtf8 "a\nInteger\n1\n".toList
    Settings.ofText text = .ok settings ∧ settings.blockSize ≤ settings.readLimit ∧
      ∃ stream blocks, compressAll settings.blockSize body = .ok (stream, blocks) ∧
        (readEach [12] (BlockReader.ofSource (.ofBytes stream) settings.readLimit)).1 =
          [.error (.block (.overLimit 12 13 12))] ∧
        ¬ HandsOut settings.readLimit stream body none := by
  intro text settings body
  have accepted : Settings.ofText text = .ok settings := by decide +kernel
  have done : compressAll 12 body = .ok (wire body, 1) := by decide +kernel
  refine ⟨accepted, Nat.le_refl 12, wire body, 1, done, by decide +kernel, fun ends => ?_⟩
  have payloads := (reads_back_iff (by decide) (Nat.le_refl 12) done).mp ends
  have single : cut 12 body = [body] := cut_short (by decide) (by decide)
  rw [single, List.forall_mem_singleton] at payloads
  exact absurd payloads (by decide)

end SqlWire.SettingsAgreement
