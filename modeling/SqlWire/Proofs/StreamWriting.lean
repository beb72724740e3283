import SqlWire.Wire.BlockWriter
import SqlWire.Proofs.BlockFraming

/-! What a writer of blocks leaves in a sink that never fails. The blocks hold the
data between consecutive flushes, cut into pieces of the block size; how it was
divided into calls shows only in what is pending between them. -/
namespace SqlWire.StreamWriting
open Transport BlockFraming

/-! ## Calls -/

/-- What is asked of a writer. -/
inductive Call where
  | write (data : Bytes)
  | writeAll (data : Bytes)
  | flush
deriving DecidableEq, Repr

/-- The bytes a call hands over. -/
def Call.data : Call → Bytes
  | .write data | .writeAll data => data
  | .flush => []

def Call.perform : Call → BlockWriter → Option StreamFault × BlockWriter
  | .write data, writer => writer.write data
  | .writeAll data, writer => writer.writeAll data
  | .flush, writer => writer.flush

/-- Make calls one after the other: what each of them reports, and the writer behind
them. A call is made also when one before it failed. -/
def run : List Call → BlockWriter → List (Option StreamFault) × BlockWriter
  | [], writer => ([], writer)
  | call :: calls, writer =>
    let (fault, writer) := call.perform writer
    let (faults, writer) := run calls writer
    (fault :: faults, writer)

/-- The data between consecutive flushes, the end counting as one. At first `current`
is pending. -/
def stretches (current : Bytes) : List Call → List Bytes
  | [] => [current]
  | .write data :: calls | .writeAll data :: calls => stretches (current ++ data) calls
  | .flush :: calls => current :: stretches [] calls

/-- Cut data into pieces of `size` bytes, and a last one of what is left. -/
def cut (size : Nat) : Bytes → List Bytes
  | [] => []
  | b :: rest => (b :: rest.take (size - 1)) :: cut size (rest.drop (size - 1))
termination_by data => data.length
decreasing_by simp only [List.length_drop, List.length_cons]; omega

/-- The plain bytes of each block that is to be written for what is pending and for
these calls. -/
def pieces (size : Nat) (current : Bytes) (calls : List Call) : List Bytes :=
  (stretches current calls).flatMap (cut size)

/-! ## Pieces -/

theorem cut_nil (size : Nat) : cut size [] = [] := by
  rw [cut]

theorem cut_full (positive : 0 < size) (full : size ≤ data.length) :
    cut size data = data.take size :: cut size (data.drop size) := by
  obtain ⟨size, rfl⟩ := Nat.exists_eq_add_of_lt positive
  cases data with
  | nil => cases full
  | cons b rest => simp [cut]

theorem cut_short (some : data ≠ []) (short : data.length ≤ size) : cut size data = [data] := by
  cases data with
  | nil => exact absurd rfl some
  | cons b rest =>
    have whole : rest.length ≤ size - 1 := Nat.le_sub_one_of_lt short
    rw [cut, List.take_of_length_le whole, List.drop_of_length_le whole, cut_nil]

theorem cut_flatten (size : Nat) (data : Bytes) : (cut size data).flatten = data := by
  fun_induction cut size data with
  | case1 => rfl
  | case2 b rest ih => rw [List.flatten_cons, ih, List.cons_append, List.take_append_drop]

/-- No piece is empty. -/
theorem cut_solid (size : Nat) (data : Bytes) : ∀ piece ∈ cut size data, piece ≠ [] := by
  fun_induction cut size data with
  | case1 => intro piece member; cases member
  | case2 b rest ih =>
    refine List.forall_mem_cons.mpr ⟨?_, ih⟩
    exact List.cons_ne_nil _ _

/-- No piece is longer than the block size. -/
theorem cut_bounded (positive : 0 < size) (data : Bytes) :
    ∀ piece ∈ cut size data, piece.length ≤ size := by
  fun_induction cut size data with
  | case1 => intro piece member; cases member
  | case2 b rest ih =>
    refine List.forall_mem_cons.mpr ⟨?_, ih⟩
    rw [List.length_cons, List.length_take]
    omega

/-- A full block may be cut off at once, whatever is written behind it. -/
theorem pieces_full (positive : 0 < size) (full : size ≤ current.length) (calls : List Call) :
    pieces size current calls =
      current.take size :: pieces size (current.drop size) calls := by
  induction calls generalizing current with
  | nil => simp [pieces, stretches, cut_full positive full]
  | cons call calls ih =>
    have grown : ∀ data, pieces size (current ++ data) calls =
        current.take size :: pieces size (current.drop size ++ data) calls := by
      intro data
      have longer : size ≤ (current ++ data).length := by
        rw [List.length_append]
        exact Nat.le_add_right_of_le full
      rw [ih longer, List.take_append_of_le_length full, List.drop_append_of_le_length full]
    cases call with
    | write data => exact grown data
    | writeAll data => exact grown data
    | flush => simp [pieces, stretches, cut_full positive full]

theorem pieces_flatten (size : Nat) (current : Bytes) (calls : List Call) :
    (pieces size current calls).flatten = current ++ calls.flatMap Call.data := by
  induction calls generalizing current with
  | nil => simp [pieces, stretches, cut_flatten]
  | cons call calls ih =>
    cases call with
    | write data => exact (ih (current ++ data)).trans (List.append_assoc ..)
    | writeAll data => exact (ih (current ++ data)).trans (List.append_assoc ..)
    | flush =>
      have others := ih []
      rw [pieces] at others ⊢
      rw [stretches, List.flatMap_cons, List.flatten_append, cut_flatten, others]
      rfl

theorem pieces_solid (size : Nat) (current : Bytes) (calls : List Call) :
    ∀ piece ∈ pieces size current calls, piece ≠ [] := by
  intro piece member
  obtain ⟨stretch, _, part⟩ := List.mem_flatMap.mp member
  exact cut_solid size stretch piece part

/-! ## Writing -/

/-- What a writer did between two states: it wrote the blocks of these pieces to a
sink that never fails. -/
structure Wrote (before after : BlockWriter) (done : List Bytes) : Prop where
  willing : Willing after.sink
  taken : after.sink.taken = before.sink.taken ++ done.flatMap wire
  count : after.blocksWritten = before.blocksWritten + done.length
  size : after.blockSize = before.blockSize

private theorem wrote_nothing {writer : BlockWriter} (willing : Willing writer.sink) :
    Wrote writer writer [] :=
  ⟨willing, (List.append_nil _).symm, rfl, rfl⟩

private theorem wrote_trans (first : Wrote before middle done) (second : Wrote middle after more) :
    Wrote before after (done ++ more) := by
  refine ⟨second.willing, ?_, ?_, second.size.trans first.size⟩
  · rw [second.taken, first.taken, List.flatMap_append, List.append_assoc]
  · rw [second.count, first.count, List.length_append, Nat.add_assoc]

private theorem emit_writes {writer : BlockWriter} (willing : Willing writer.sink)
    (fits : Fits (writer.pending.take count)) :
    ∃ after, writer.emit count = (none, after) ∧ Wrote writer after [writer.pending.take count] ∧
      after.pending = writer.pending.drop count := by
  obtain ⟨sink, written, taken, kept⟩ := write_takes willing (wire (writer.pending.take count))
  refine ⟨{ writer with
    sink := sink, pending := writer.pending.drop count,
    blocksWritten := writer.blocksWritten + 1 }, ?_, ⟨kept, ?_, rfl, rfl⟩, rfl⟩
  · rw [BlockWriter.emit, encode_fits fits]
    simp only [written]
  · rw [List.flatMap_singleton]
    exact taken

/-- Full blocks leave the writer one by one, and what stays is cut as before. -/
theorem emit_full_writes {writer : BlockWriter} (willing : Willing writer.sink)
    (full : count * writer.blockSize ≤ writer.pending.length) (calls : List Call)
    (fits : ∀ piece ∈ pieces writer.blockSize writer.pending calls, Fits piece) :
    ∃ after done, writer.emitFull count = (none, after) ∧ Wrote writer after done ∧
      after.pending = writer.pending.drop (count * writer.blockSize) ∧
      ∀ calls, pieces writer.blockSize writer.pending calls =
        done ++ pieces writer.blockSize after.pending calls := by
  induction count generalizing writer with
  | zero =>
    refine ⟨writer, [], rfl, wrote_nothing willing, ?_, fun _ => rfl⟩
    rw [Nat.zero_mul, List.drop_zero]
  | succ count ih =>
    rw [Nat.succ_mul] at full
    have front := pieces_full writer.blockSize_pos (Nat.le_trans (Nat.le_add_left ..) full)
    rw [front calls] at fits
    obtain ⟨here, others⟩ := List.forall_mem_cons.mp fits
    obtain ⟨middle, emitted, wrote, left⟩ := emit_writes willing here
    rw [← left, ← wrote.size] at others
    have more : count * middle.blockSize ≤ middle.pending.length := by
      rw [wrote.size, left, List.length_drop]
      omega
    obtain ⟨after, done, finished, wroteMore, rest, cuts⟩ := ih wrote.willing more others
    refine ⟨after, writer.pending.take writer.blockSize :: done, ?_, wrote_trans wrote wroteMore,
      ?_, fun calls => ?_⟩
    · rw [BlockWriter.emitFull, emitted]
      exact finished
    · rw [rest, left, wrote.size, List.drop_drop, Nat.succ_mul, Nat.add_comm]
    · have others := cuts calls
      rw [wrote.size, left] at others
      rw [front calls, others, List.cons_append]

private theorem write_writes {writer : BlockWriter} (willing : Willing writer.sink)
    (calls : List Call)
    (fits : ∀ piece ∈ pieces writer.blockSize (writer.pending ++ data) calls, Fits piece) :
    ∃ after done, writer.write data = (none, after) ∧ Wrote writer after done ∧
      after.pending.length < after.blockSize ∧
      ∀ calls, pieces writer.blockSize (writer.pending ++ data) calls =
        done ++ pieces writer.blockSize after.pending calls := by
  have positive := writer.blockSize_pos
  obtain ⟨after, done, finished, wrote, left, cuts⟩ :=
    @emit_full_writes ((writer.pending ++ data).length / writer.blockSize)
      { writer with pending := writer.pending ++ data } willing
      (Nat.div_mul_le_self ..) calls fits
  refine ⟨after, done, finished, ⟨wrote.willing, wrote.taken, wrote.count, wrote.size⟩, ?_, cuts⟩
  rw [left, wrote.size, List.length_drop, Nat.mul_comm, ← Nat.mod_eq_sub_mul_div]
  exact Nat.mod_lt _ positive

private theorem write_all_writes {writer : BlockWriter} (willing : Willing writer.sink)
    (short : writer.pending.length < writer.blockSize) (calls : List Call)
    (fits : ∀ piece ∈ pieces writer.blockSize (writer.pending ++ data) calls, Fits piece) :
    ∃ after done, writer.writeAll data = (none, after) ∧ Wrote writer after done ∧
      after.pending.length < after.blockSize ∧
      ∀ calls, pieces writer.blockSize (writer.pending ++ data) calls =
        done ++ pieces writer.blockSize after.pending calls := by
  cases data with
  | nil =>
    refine ⟨writer, [], rfl, wrote_nothing willing, short, fun calls => ?_⟩
    rw [List.append_nil, List.nil_append]
  | cons b data => exact write_writes willing calls fits

private theorem flush_writes {writer : BlockWriter} (willing : Willing writer.sink)
    (short : writer.pending.length < writer.blockSize)
    (fits : ∀ piece ∈ cut writer.blockSize writer.pending, Fits piece) :
    ∃ after, writer.flush = (none, after) ∧
      Wrote writer after (cut writer.blockSize writer.pending) ∧ after.pending = [] := by
  cases pending : writer.pending with
  | nil =>
    obtain ⟨sink, flushed, taken, kept⟩ := flush_passes willing
    refine ⟨{ writer with sink := sink }, ?_, ⟨kept, ?_, ?_, rfl⟩, pending⟩
    · simp [BlockWriter.flush, pending, flushed]
    · simp [cut_nil, taken]
    · simp [cut_nil]
  | cons b rest =>
    have one : cut writer.blockSize writer.pending = [writer.pending] :=
      cut_short (pending ▸ List.cons_ne_nil b rest) (Nat.le_of_lt short)
    have whole : writer.pending.take writer.pending.length = writer.pending := List.take_length
    rw [one] at fits
    have here : Fits (writer.pending.take writer.pending.length) := by
      rw [whole]
      exact fits _ (List.mem_singleton_self _)
    obtain ⟨middle, emitted, wrote, left⟩ := emit_writes willing here
    obtain ⟨sink, flushed, taken, kept⟩ := flush_passes wrote.willing
    rw [whole, ← one, pending] at wrote
    refine ⟨{ middle with sink := sink }, ?_, ⟨kept, ?_, wrote.count, wrote.size⟩, ?_⟩
    · have present : writer.pending.isEmpty = false := by
        rw [pending]
        rfl
      simp only [BlockWriter.flush, present, emitted, flushed, Option.map_none, Bool.false_eq_true,
        ↓reduceIte]
    · exact taken.trans wrote.taken
    · rw [left, List.drop_length]

/-- One call: it reports no fault, and what it wrote are the first pieces that were to
come. -/
theorem call_writes {writer : BlockWriter} (willing : Willing writer.sink)
    (short : writer.pending.length < writer.blockSize) (call : Call) (calls : List Call)
    (fits : ∀ piece ∈ pieces writer.blockSize writer.pending (call :: calls), Fits piece) :
    ∃ after done, call.perform writer = (none, after) ∧ Wrote writer after done ∧
      after.pending.length < after.blockSize ∧
      ∀ calls, pieces writer.blockSize writer.pending (call :: calls) =
        done ++ pieces writer.blockSize after.pending calls := by
  cases call with
  | write data => exact write_writes willing calls fits
  | writeAll data => exact write_all_writes willing short calls fits
  | flush =>
    have parts : ∀ calls, pieces writer.blockSize writer.pending (.flush :: calls) =
      cut writer.blockSize writer.pending ++ pieces writer.blockSize [] calls := fun _ => rfl
    rw [parts] at fits
    obtain ⟨here, _⟩ := List.forall_mem_append.mp fits
    obtain ⟨after, flushed, wrote, left⟩ := flush_writes willing short here
    refine ⟨after, _, flushed, wrote, ?_, ?_⟩
    · rw [left, wrote.size]
      exact writer.blockSize_pos
    · rw [left]
      exact parts

/-- Calls one after the other: no fault is reported, and what they wrote are the first
pieces that were to come. -/
theorem run_writes {writer : BlockWriter} (willing : Willing writer.sink)
    (short : writer.pending.length < writer.blockSize) (calls behind : List Call)
    (fits : ∀ piece ∈ pieces writer.blockSize writer.pending (calls ++ behind), Fits piece) :
    ∃ after done, run calls writer = (List.replicate calls.length none, after) ∧
      Wrote writer after done ∧ after.pending.length < after.blockSize ∧
      ∀ behind, pieces writer.blockSize writer.pending (calls ++ behind) =
        done ++ pieces writer.blockSize after.pending behind := by
  induction calls generalizing writer with
  | nil => exact ⟨writer, [], rfl, wrote_nothing willing, short, fun _ => rfl⟩
  | cons call calls ih =>
    obtain ⟨middle, done, result, wrote, room, cuts⟩ :=
      call_writes willing short call (calls ++ behind) fits
    rw [List.cons_append, cuts, ← wrote.size] at fits
    obtain ⟨after, more, results, wroteMore, roomMore, cutsMore⟩ :=
      ih wrote.willing room (List.forall_mem_append.mp fits).2
    refine ⟨after, done ++ more, ?_, wrote_trans wrote wroteMore, roomMore, fun behind => ?_⟩
    · rw [run, result]
      simp only [results]
      rfl
    · rw [wrote.size] at cutsMore
      rw [List.cons_append, cuts, cutsMore, List.append_assoc]

theorem run_append (front behind : List Call) (writer : BlockWriter) :
    run (front ++ behind) writer =
      ((run front writer).1 ++ (run behind (run front writer).2).1,
        (run behind (run front writer).2).2) := by
  induction front generalizing writer with
  | nil => rfl
  | cons call front ih => simp [run, ih]

/-- Calls and a last flush write all pieces. -/
theorem run_finishes {writer : BlockWriter} (willing : Willing writer.sink)
    (short : writer.pending.length < writer.blockSize) (calls : List Call)
    (fits : ∀ piece ∈ pieces writer.blockSize writer.pending calls, Fits piece) :
    ∃ after, run (calls ++ [.flush]) writer = (List.replicate (calls.length + 1) none, after) ∧
      Wrote writer after (pieces writer.blockSize writer.pending calls) := by
  have whole := List.append_nil calls
  rw [← whole] at fits
  obtain ⟨middle, done, results, wrote, room, cuts⟩ := run_writes willing short calls [] fits
  have parts := cuts []
  have last : pieces writer.blockSize middle.pending [] = cut middle.blockSize middle.pending := by
    rw [wrote.size]
    exact List.append_nil _
  rw [parts, last] at fits
  obtain ⟨after, flushed, wroteLast, _⟩ :=
    flush_writes wrote.willing room (List.forall_mem_append.mp fits).2
  refine ⟨after, ?_, ?_⟩
  · rw [run_append, results, List.replicate_succ']
    simp only [run, Call.perform, flushed]
  · rw [← whole, parts, last]
    exact wrote_trans wrote wroteLast

/-- A flush where nothing is pending adds no piece. -/
theorem pieces_flush_again {writer : BlockWriter} (willing : Willing writer.sink)
    (short : writer.pending.length < writer.blockSize) (front behind : List Call)
    (fits : ∀ piece ∈ pieces writer.blockSize writer.pending (front ++ behind), Fits piece)
    (nothing : (run front writer).2.pending = []) :
    pieces writer.blockSize writer.pending (front ++ .flush :: behind) =
      pieces writer.blockSize writer.pending (front ++ behind) := by
  obtain ⟨middle, done, results, wrote, room, cuts⟩ := run_writes willing short front behind fits
  rw [results] at nothing
  have again : pieces writer.blockSize [] (.flush :: behind) =
      pieces writer.blockSize [] behind := by
    show cut writer.blockSize [] ++ pieces writer.blockSize [] behind = _
    rw [cut_nil, List.nil_append]
  rw [cuts, cuts, nothing, again]

end SqlWire.StreamWriting
