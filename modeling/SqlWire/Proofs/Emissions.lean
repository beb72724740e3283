import SqlWire.Proofs.WriteFailures

/-! The emissions of a writer of blocks. All that a call does to a writer is done in small
steps: bytes are handed over, the sink is flushed, or the first pending bytes are offered to
the sink as one block. Only an emission that completes takes bytes out of what is pending,
and it takes those of its block; so these, in the order of the emissions, and what is
pending behind them are at any time all bytes that were handed over. -/
namespace SqlWire.Emissions
open Transport BlockFraming StreamWriting WriteFailures

/-- An attempt of a writer to write its first `count` pending bytes as one block. -/
structure Emission where
  writer : BlockWriter
  count : Nat
deriving DecidableEq, Repr

namespace Emission

/-- The plain bytes of the block. -/
def plain (emission : Emission) : Bytes := emission.writer.pending.take emission.count

/-- What the attempt reports. -/
def fault (emission : Emission) : Option StreamFault := (emission.writer.emit emission.count).1

/-- The writer behind the attempt. -/
def after (emission : Emission) : BlockWriter := (emission.writer.emit emission.count).2

end Emission

/-- The plain bytes of the emissions that completed, one piece for each. -/
def completed (made : List Emission) : List Bytes :=
  (made.filter (·.fault.isNone)).map Emission.plain

/-- The emissions of `blocks` full blocks, up to the first that fails. -/
def fullEmissions : (blocks : Nat) → BlockWriter → List Emission
  | 0, _ => []
  | blocks + 1, writer =>
    let emission : Emission := ⟨writer, writer.blockSize⟩
    emission :: if emission.fault.isNone then fullEmissions blocks emission.after else []

/-- The emissions of a write. -/
def writeEmissions (data : Bytes) (writer : BlockWriter) : List Emission :=
  fullEmissions ((writer.pending ++ data).length / writer.blockSize)
    { writer with pending := writer.pending ++ data }

/-- The emissions of one call. -/
def callEmissions : Call → BlockWriter → List Emission
  | .write data, writer => writeEmissions data writer
  | .writeAll data, writer => if data.isEmpty then [] else writeEmissions data writer
  | .flush, writer => if writer.pending.isEmpty then [] else [⟨writer, writer.pending.length⟩]

/-- The emissions of calls one after the other. -/
def emissions : List Call → BlockWriter → List Emission
  | [], _ => []
  | call :: calls, writer =>
    callEmissions call writer ++ emissions calls (call.perform writer).2

/-! ## Steps -/

/-- What a writer did between two states: it was handed these data and made these emissions,
each of them with the writer that the step before left. -/
inductive Reaches : BlockWriter → Bytes → List Emission → BlockWriter → Prop where
  | here : Reaches writer [] [] writer
  | handed (data : Bytes)
      (behind : Reaches { writer with pending := writer.pending ++ data } more made after) :
      Reaches writer (data ++ more) made after
  | flushed (behind : Reaches { writer with sink := writer.sink.flush.2 } data made after) :
      Reaches writer data made after
  | emitted (emission : Emission) (behind : Reaches emission.after data made after) :
      Reaches emission.writer data (emission :: made) after

private theorem reaches_trans (first : Reaches before data made middle)
    (second : Reaches middle more others after) :
    Reaches before (data ++ more) (made ++ others) after := by
  induction first with
  | here => exact second
  | handed data behind ih =>
    rw [List.append_assoc]
    exact .handed data (ih second)
  | flushed behind ih => exact .flushed (ih second)
  | emitted emission behind ih => exact .emitted emission (ih second)

/-- An emission writes its block whole and drops its bytes, or it reports a fault and leaves
the writer as it was but for the sink. -/
theorem emit_cases (writer : BlockWriter) (count : Nat) :
    (∃ sink, Fits (writer.pending.take count) ∧
        writer.emit count = (none, { writer with
          sink := sink, pending := writer.pending.drop count,
          blocksWritten := writer.blocksWritten + 1 }) ∧
        sink.taken = writer.sink.taken ++ wire (writer.pending.take count)) ∨
      ∃ fault sink, writer.emit count = (some fault, { writer with sink := sink }) := by
  unfold BlockWriter.emit
  cases encoded : Block.encode (writer.pending.take count) with
  | error fault => exact .inr ⟨.block fault, writer.sink, rfl⟩
  | ok block =>
    obtain ⟨fits, rfl⟩ := encode_bytes encoded
    obtain ⟨part, behind, parts, taken, ended⟩ :=
      sink_takes_part writer.sink (wire (writer.pending.take count))
    cases result : writer.sink.write (wire (writer.pending.take count)) with
    | mk fault sink =>
      rw [result] at taken ended
      cases fault with
      | some fault => exact .inr ⟨.io fault, sink, by simp only [result]⟩
      | none =>
        obtain rfl : behind = [] := ended.mp rfl
        rw [List.append_nil] at parts
        exact .inl ⟨sink, fits, by simp only [result], parts ▸ taken⟩

/-- An emission that completed has written the block of its bytes. -/
theorem completed_writes {emission : Emission} (done : emission.fault = none) :
    Fits emission.plain ∧
      emission.after.sink.taken = emission.writer.sink.taken ++ wire emission.plain ∧
      emission.after.pending = emission.writer.pending.drop emission.count ∧
      emission.after.blocksWritten = emission.writer.blocksWritten + 1 := by
  unfold Emission.fault at done
  unfold Emission.after
  rcases emit_cases emission.writer emission.count with
    ⟨sink, fits, result, taken⟩ | ⟨fault, sink, result⟩
  · rw [result]
    exact ⟨fits, taken, rfl, rfl⟩
  · rw [result] at done
    cases done

/-- An emission that failed has changed nothing but the sink. -/
theorem failed_keeps {emission : Emission} (failed : emission.fault ≠ none) :
    emission.after = { emission.writer with sink := emission.after.sink } := by
  unfold Emission.fault at failed
  unfold Emission.after
  rcases emit_cases emission.writer emission.count with ⟨sink, -, result, -⟩ | ⟨fault, sink, result⟩
  · rw [result] at failed
    exact absurd rfl failed
  · rw [result]

theorem emission_size (emission : Emission) :
    emission.after.blockSize = emission.writer.blockSize := by
  unfold Emission.after
  rcases emit_cases emission.writer emission.count with
    ⟨sink, -, result, -⟩ | ⟨fault, sink, result⟩ <;> rw [result]

theorem completed_cons (emission : Emission) (made : List Emission) :
    completed (emission :: made) =
      if emission.fault = none then emission.plain :: completed made else completed made := by
  unfold completed
  cases done : emission.fault <;> simp [done]

/-- Whatever the steps, no pending byte is lost or repeated, and every emission that
completed is counted. -/
theorem reaches_keeps (reaches : Reaches before data made after) :
    before.pending ++ data = (completed made).flatten ++ after.pending ∧
      after.blocksWritten = before.blocksWritten + (completed made).length ∧
      after.blockSize = before.blockSize := by
  induction reaches with
  | here => exact ⟨List.append_nil _, rfl, rfl⟩
  | handed data behind ih =>
    rw [← List.append_assoc]
    exact ih
  | flushed behind ih => exact ih
  | @emitted data made after emission behind ih =>
    obtain ⟨kept, count, size⟩ := ih
    rw [completed_cons, size, emission_size]
    by_cases done : emission.fault = none
    · obtain ⟨-, -, pending, counted⟩ := completed_writes done
      rw [if_pos done, List.flatten_cons, List.append_assoc, ← kept, pending, ← List.append_assoc,
        Emission.plain, List.take_append_drop, count, counted, List.length_cons]
      exact ⟨rfl, by omega, rfl⟩
    · have same := failed_keeps done
      rw [if_neg done, ← kept, count, same]
      exact ⟨rfl, rfl, rfl⟩

/-! ## Calls -/

private theorem full_reaches (count : Nat) (writer : BlockWriter) :
    Reaches writer [] (fullEmissions count writer) (writer.emitFull count).2 := by
  induction count generalizing writer with
  | zero => exact .here
  | succ count ih =>
    have first := ih (Emission.mk writer writer.blockSize).after
    refine .emitted ⟨writer, writer.blockSize⟩ ?_
    rw [BlockWriter.emitFull]
    cases result : writer.emit writer.blockSize with
    | mk fault middle =>
      cases fault with
      | some fault =>
        simp only [Emission.fault, Emission.after, result]
        exact .here
      | none =>
        simp only [Emission.fault, Emission.after, result] at first ⊢
        exact first

theorem write_reaches (data : Bytes) (writer : BlockWriter) :
    Reaches writer data (writeEmissions data writer) (writer.write data).2 := by
  have handed := Reaches.handed data
    (full_reaches ((writer.pending ++ data).length / writer.blockSize)
      { writer with pending := writer.pending ++ data })
  rwa [List.append_nil] at handed

private theorem flush_reaches (writer : BlockWriter) :
    Reaches writer [] (callEmissions .flush writer) writer.flush.2 := by
  unfold callEmissions BlockWriter.flush
  by_cases nothing : writer.pending.isEmpty
  · simp only [nothing, ↓reduceIte]
    exact .flushed .here
  · simp only [nothing, Bool.false_eq_true, ↓reduceIte]
    refine .emitted ⟨writer, writer.pending.length⟩ ?_
    unfold Emission.after
    cases result : writer.emit writer.pending.length with
    | mk fault middle =>
      cases fault with
      | some fault => exact .here
      | none => exact .flushed .here

private theorem call_reaches (call : Call) (writer : BlockWriter) :
    Reaches writer call.data (callEmissions call writer) (call.perform writer).2 := by
  cases call with
  | write data => exact write_reaches data writer
  | flush => exact flush_reaches writer
  | writeAll data =>
    cases data with
    | nil => exact .here
    | cons b data => exact write_reaches (b :: data) writer

/-- The emissions of calls are those that lead from the writer before them to the one
behind them. -/
theorem run_reaches (calls : List Call) (writer : BlockWriter) :
    Reaches writer (calls.flatMap Call.data) (emissions calls writer) (run calls writer).2 := by
  induction calls generalizing writer with
  | nil => exact .here
  | cons call calls ih => exact reaches_trans (call_reaches call writer) (ih _)

/-! ## Successful calls -/

/-- As many full blocks as were asked for are gone where no fault is reported. -/
theorem full_drops {writer : BlockWriter} (done : (writer.emitFull count).1 = none) :
    (writer.emitFull count).2.pending = writer.pending.drop (count * writer.blockSize) := by
  induction count generalizing writer with
  | zero => rw [Nat.zero_mul, List.drop_zero, BlockWriter.emitFull]
  | succ count ih =>
    rw [BlockWriter.emitFull] at done ⊢
    rcases emit_cases writer writer.blockSize with
      ⟨sink, -, result, -⟩ | ⟨fault, sink, result⟩
    · rw [result] at done ⊢
      rw [ih done, List.drop_drop, Nat.succ_mul, Nat.add_comm]
    · rw [result] at done
      cases done

/-- A write that succeeds leaves less than a block pending. -/
theorem write_leaves {writer : BlockWriter} (done : (writer.write data).1 = none) :
    (writer.write data).2.pending.length < writer.blockSize := by
  rw [BlockWriter.write] at done ⊢
  rw [full_drops done, List.length_drop, Nat.mul_comm, ← Nat.mod_eq_sub_mul_div]
  exact Nat.mod_lt _ writer.blockSize_pos

/-- Behind any calls, whatever they reported and whatever the sink did: the plain bytes of
the emissions that completed, followed by the pending bytes, are the data of all calls, those
that failed included, and as many blocks count as written as emissions completed. An emission
that completed has put the block of its plain bytes into the sink; one that failed has changed
neither the pending bytes nor the count. A write that reports no fault now leaves less than a
block pending, and a flush that reports none leaves nothing. -/
theorem buffer_keeps_plain_bytes (size : Nat) (calls : List Call) (sink : Sink) :
    let start := BlockWriter.ofSink sink size
    let writer := (run calls start).2
    let made := emissions calls start
    Reaches start (calls.flatMap Call.data) made writer ∧
      (completed made).flatten ++ writer.pending = calls.flatMap Call.data ∧
      writer.blocksWritten = (completed made).length ∧
      (∀ emission ∈ made,
        (emission.fault = none → ∃ block, Block.encode emission.plain = .ok block ∧
          emission.after.sink.taken = emission.writer.sink.taken ++ block) ∧
        (emission.fault ≠ none → emission.after.pending = emission.writer.pending ∧
          emission.after.blocksWritten = emission.writer.blocksWritten)) ∧
      (∀ data, (writer.write data).1 = none →
        (writer.write data).2.pending.length < max 1 size) ∧
      (writer.flush.1 = none → writer.flush.2.pending = []) := by
  intro start writer made
  have reaches : Reaches start (calls.flatMap Call.data) made writer := run_reaches calls start
  obtain ⟨kept, count, width⟩ := reaches_keeps reaches
  refine ⟨reaches, kept.symm, count.trans (Nat.zero_add _), ?_, ?_, ?_⟩
  · intro emission _
    refine ⟨fun done => ?_, fun failed => ?_⟩
    · obtain ⟨fits, taken, -⟩ := completed_writes done
      exact ⟨wire emission.plain, encode_fits fits, taken⟩
    · rw [failed_keeps failed]
      exact ⟨rfl, rfl⟩
  · intro data done
    have short := write_leaves done
    rwa [width] at short
  · obtain ⟨-, -, -, ended⟩ := flush_logs writer
    exact ended

/-- The sink takes a part of the first block and then fails, so its bytes are tried again
with those of the next write; another write leaves one byte behind. -/
theorem torn_block_is_tried_again :
    let fault : IoFault := ⟨.brokenPipe, "sink failed"⟩
    let start := BlockWriter.ofSink ⟨[], [.upTo 3, .fails fault], []⟩ 2
    let calls := [.write [1, 2, 3], .write [4]]
    let writer := (run calls start).2
    let made := emissions calls start
    made.map (fun emission => (emission.plain, emission.fault)) =
        [([1, 2], some (.io fault)), ([1, 2], none), ([3, 4], none)] ∧
      (completed made).flatten ++ writer.pending = [1, 2, 3, 4] ∧ writer.blocksWritten = 2 ∧
      (writer.write [5, 6, 7]).1 = none ∧ (writer.write [5, 6, 7]).2.pending.length < 2 := by
  intro fault start calls writer made
  have attempts : made.map (fun emission => (emission.plain, emission.fault)) =
      [([1, 2], some (.io fault)), ([1, 2], none), ([3, 4], none)] := by decide +kernel
  have counted : (completed made).length = 2 := by decide +kernel
  have done : (writer.write [5, 6, 7]).1 = none := by decide +kernel
  obtain ⟨-, kept, count, -, short, -⟩ :=
    buffer_keeps_plain_bytes 2 calls ⟨[], [.upTo 3, .fails fault], []⟩
  exact ⟨attempts, kept, count.trans counted, done, short [5, 6, 7] done⟩

end SqlWire.Emissions
