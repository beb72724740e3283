import SqlWire.Proofs.StreamReading
import SqlWire.Proofs.StreamWriting

/-! What a writer of blocks leaves in a sink that may fail at any time. The bytes in
the sink are whole blocks and torn beginnings of blocks; the plain bytes of the whole
blocks and those still pending are all bytes the writer was ever handed, also by the
calls that reported a fault. A stream that was finished therefore holds more than
what was accepted as soon as a failed call handed bytes over, and it can be read back
for certain only if no block was torn. -/
namespace SqlWire.WriteFailures
open Transport BlockFraming StreamWriting StreamReading

/-! ## Sinks that fail -/

/-- What comes of an offer: a part from the front is taken, and all of it just when no
fault is reported. -/
def TakesPart (runs : List Bytes) (offered : Bytes)
    (outcome : Option IoFault × List Bytes × List Acceptance) : Prop :=
  ∃ part behind, offered = part ++ behind ∧
    outcome.2.1.reverse.flatten = runs.reverse.flatten ++ part ∧ (outcome.1 = none ↔ behind = [])

private theorem takes_all (runs : List Bytes) (offered : Bytes) (script : List Acceptance) :
    TakesPart runs offered (none, offered :: runs, script) :=
  ⟨offered, [], (List.append_nil _).symm, by simp, by simp⟩

private theorem takes_nothing (runs : List Bytes) (some : offered ≠ []) (fault : IoFault)
    (script : List Acceptance) : TakesPart runs offered (.some fault, runs, script) :=
  ⟨[], offered, rfl, by simp, by simpa using some⟩

private theorem takes_more (count : Nat)
    (behind : TakesPart (offered.take count :: runs) (offered.drop count) outcome) :
    TakesPart runs offered outcome := by
  obtain ⟨part, behind, parts, holds, ended⟩ := behind
  refine ⟨offered.take count ++ part, behind, ?_, ?_, ended⟩
  · rw [List.append_assoc, ← parts, List.take_append_drop]
  · simpa using holds

private theorem write_from_takes_part (runs : List Bytes) (script : List Acceptance)
    (offered : Bytes) :
    TakesPart runs offered (Sink.writeFrom runs script offered) := by
  induction script generalizing runs offered with
  | nil =>
    cases offered with
    | nil => exact ⟨[], [], rfl, (List.append_nil _).symm, by simp [Sink.writeFrom]⟩
    | cons b offered => exact takes_all runs (b :: offered) []
  | cons acceptance script ih =>
    cases offered with
    | nil => exact ⟨[], [], rfl, (List.append_nil _).symm, by simp [Sink.writeFrom]⟩
    | cons b offered =>
      have some : b :: offered ≠ [] := List.cons_ne_nil b offered
      cases acceptance with
      | all => exact takes_all runs (b :: offered) script
      | fails fault => exact takes_nothing runs some fault script
      | half =>
        simp only [Sink.writeFrom]
        split
        · exact takes_nothing runs some _ script
        · exact takes_more _ (ih _ _)
      | upTo most =>
        simp only [Sink.writeFrom]
        split
        · exact takes_nothing runs some _ script
        · exact takes_more _ (ih _ _)

theorem sink_takes_part (sink : Sink) (bytes : Bytes) :
    ∃ part behind, bytes = part ++ behind ∧
      (sink.write bytes).2.taken = sink.taken ++ part ∧
      ((sink.write bytes).1 = none ↔ behind = []) :=
  write_from_takes_part sink.runs sink.acceptances bytes

private theorem flush_takes_nothing (sink : Sink) : sink.flush.2.taken = sink.taken := by
  obtain ⟨runs, acceptances, flushes⟩ := sink
  cases flushes <;> rfl

/-! ## Attempts to write a block -/

/-- What an attempt to write a block left in the sink. -/
inductive Attempt where
  /-- The block of these plain bytes. -/
  | whole (plain : Bytes)
  /-- Some bytes of a block, and not all of them. -/
  | torn (part : Bytes)
deriving DecidableEq, Repr

namespace Attempt

/-- The bytes in the sink. -/
def bytes : Attempt → Bytes
  | .whole plain => wire plain
  | .torn part => part

/-- The plain bytes that were written. -/
def plain? : Attempt → Option Bytes
  | .whole plain => some plain
  | .torn _ => none

/-- Blocks have plain bytes, and lengths that fit their headers. -/
def Sound : Attempt → Prop
  | .whole plain => Fits plain ∧ plain ≠ []
  | .torn part => part ≠ [] ∧ ∃ plain behind, Fits plain ∧ behind ≠ [] ∧ wire plain = part ++ behind

end Attempt

/-- The plain bytes of the whole blocks. -/
def written (log : List Attempt) : List Bytes := log.filterMap Attempt.plain?

/-- How many blocks were torn. -/
def torn (log : List Attempt) : Nat := log.countP (·.plain?.isNone)

/-- How many calls failed. -/
def failed (reports : List (Option StreamFault)) : Nat := reports.countP Option.isSome

/-- What a writer did between two states in which it was handed data. -/
structure Logged (before after : BlockWriter) (data : Bytes) (log : List Attempt) : Prop where
  taken : after.sink.taken = before.sink.taken ++ log.flatMap Attempt.bytes
  kept : before.pending ++ data = (written log).flatten ++ after.pending
  count : after.blocksWritten = before.blocksWritten + (written log).length
  size : after.blockSize = before.blockSize
  sound : ∀ attempt ∈ log, attempt.Sound

theorem encode_bytes (encoded : Block.encode plain = .ok block) :
    Fits plain ∧ block = wire plain := by
  rw [Block.encode] at encoded
  dsimp only at encoded
  split at encoded
  · cases encoded
  next fits =>
    cases encoded
    exact ⟨⟨by omega, by omega⟩, rfl⟩

private theorem logged_nothing (writer : BlockWriter) : Logged writer writer [] [] :=
  ⟨(List.append_nil _).symm, List.append_nil _, rfl, rfl, by simp⟩

private theorem written_append (front back : List Attempt) :
    written (front ++ back) = written front ++ written back := List.filterMap_append

private theorem logged_trans (first : Logged before middle data log)
    (second : Logged middle after more others) :
    Logged before after (data ++ more) (log ++ others) := by
  refine ⟨?_, ?_, ?_, second.size.trans first.size, ?_⟩
  · rw [second.taken, first.taken, List.flatMap_append, List.append_assoc]
  · rw [← List.append_assoc, first.kept, List.append_assoc, second.kept, written_append,
      List.flatten_append, List.append_assoc]
  · rw [second.count, first.count, written_append, List.length_append, Nat.add_assoc]
  · exact List.forall_mem_append.mpr ⟨first.sound, second.sound⟩

private theorem torn_append (front back : List Attempt) :
    torn (front ++ back) = torn front + torn back := List.countP_append

private theorem failed_cons (report : Option StreamFault) (reports : List (Option StreamFault)) :
    failed (report :: reports) = failed [report] + failed reports := by
  rw [← List.singleton_append]
  exact List.countP_append

/-- An attempt to write pending bytes leaves a whole block and drops them, or leaves a
torn one or nothing, keeps them and reports a fault. -/
theorem emit_logs (writer : BlockWriter) (some : writer.pending.take count ≠ []) :
    ∃ log, Logged writer (writer.emit count).2 [] log ∧
      torn log ≤ failed [(writer.emit count).1] ∧
      ((writer.emit count).1 = none →
        (writer.emit count).2.pending = writer.pending.drop count) := by
  cases encoded : Block.encode (writer.pending.take count) with
  | error fault =>
    refine ⟨[], ?_, Nat.zero_le _, ?_⟩ <;> simp only [BlockWriter.emit, encoded]
    · exact logged_nothing writer
    · simp
  | ok block =>
    obtain ⟨fits, rfl⟩ := encode_bytes encoded
    obtain ⟨part, behind, parts, taken, ended⟩ :=
      sink_takes_part writer.sink (wire (writer.pending.take count))
    cases result : writer.sink.write (wire (writer.pending.take count)) with
    | mk fault sink =>
      rw [result] at taken ended
      cases fault with
      | none =>
        obtain rfl := ended.mp rfl
        rw [List.append_nil] at parts
        refine ⟨[.whole (writer.pending.take count)], ?_, Nat.zero_le _, ?_⟩ <;>
          simp only [BlockWriter.emit, encoded, result, implies_true]
        refine ⟨?_, ?_, rfl, rfl, ?_⟩
        · simpa [Attempt.bytes, parts] using taken
        · simp [written, Attempt.plain?]
        · simp [Attempt.Sound, fits, some]
      | some fault =>
        have left : behind ≠ [] := by
          rintro rfl
          exact absurd (ended.mpr rfl) (Option.some_ne_none fault)
        by_cases nothing : part = []
        · subst nothing
          refine ⟨[], ?_, Nat.zero_le _, ?_⟩ <;> simp only [BlockWriter.emit, encoded, result]
          · exact ⟨by simpa using taken, List.append_nil _, rfl, rfl, by simp⟩
          · simp
        · refine ⟨[.torn part], ?_, ?_, ?_⟩ <;> simp only [BlockWriter.emit, encoded, result]
          · refine ⟨by simpa [Attempt.bytes] using taken, List.append_nil _, rfl, rfl, ?_⟩
            simpa [Attempt.Sound, nothing] using ⟨_, fits, _, left, parts⟩
          · exact Nat.le_refl _
          · simp

private theorem emit_full_logs (writer : BlockWriter)
    (full : count * writer.blockSize ≤ writer.pending.length) :
    ∃ log, Logged writer (writer.emitFull count).2 [] log ∧
      torn log ≤ failed [(writer.emitFull count).1] := by
  induction count generalizing writer with
  | zero => exact ⟨[], logged_nothing writer, Nat.zero_le _⟩
  | succ count ih =>
    rw [Nat.succ_mul] at full
    have positive := writer.blockSize_pos
    have some : writer.pending.take writer.blockSize ≠ [] := by
      rw [← List.length_pos_iff, List.length_take]
      omega
    obtain ⟨log, logged, tears, dropped⟩ := emit_logs writer some
    rw [BlockWriter.emitFull]
    cases result : writer.emit writer.blockSize with
    | mk fault middle =>
      rw [result] at logged tears dropped
      cases fault with
      | some fault => exact ⟨log, logged, tears⟩
      | none =>
        have more : count * middle.blockSize ≤ middle.pending.length := by
          rw [logged.size, dropped rfl, List.length_drop]
          omega
        obtain ⟨others, loggedMore, tearsMore⟩ := ih middle more
        have none : torn log = 0 := Nat.le_zero.mp tears
        refine ⟨log ++ others, logged_trans logged loggedMore, ?_⟩
        rwa [torn_append, none, Nat.zero_add]

private theorem write_logs (writer : BlockWriter) (data : Bytes) :
    ∃ log, Logged writer (writer.write data).2 data log ∧
      torn log ≤ failed [(writer.write data).1] := by
  obtain ⟨log, logged, tears⟩ := emit_full_logs { writer with pending := writer.pending ++ data }
    (Nat.div_mul_le_self (writer.pending ++ data).length writer.blockSize)
  have kept := logged.kept
  rw [List.append_nil] at kept
  exact ⟨log, ⟨logged.taken, kept, logged.count, logged.size, logged.sound⟩, tears⟩

private theorem flush_sink_logs (logged : Logged before middle data log) :
    Logged before { middle with sink := middle.sink.flush.2 } data log :=
  ⟨(flush_takes_nothing middle.sink).trans logged.taken, logged.kept, logged.count, logged.size,
    logged.sound⟩

theorem flush_logs (writer : BlockWriter) :
    ∃ log, Logged writer writer.flush.2 [] log ∧ torn log ≤ failed [writer.flush.1] ∧
      (writer.flush.1 = none → writer.flush.2.pending = []) := by
  by_cases nothing : writer.pending = []
  · have absent : writer.pending.isEmpty = true := List.isEmpty_iff.mpr nothing
    refine ⟨[], ?_, Nat.zero_le _, ?_⟩ <;> simp only [BlockWriter.flush, absent, ↓reduceIte]
    · exact flush_sink_logs (logged_nothing writer)
    · exact fun _ => nothing
  · have present : writer.pending.isEmpty = false := List.isEmpty_eq_false_iff.mpr nothing
    have some : writer.pending.take writer.pending.length ≠ [] := by rwa [List.take_length]
    obtain ⟨log, logged, tears, dropped⟩ := emit_logs writer some
    cases result : writer.emit writer.pending.length with
    | mk fault middle =>
      rw [result] at logged tears dropped
      cases fault with
      | some fault =>
        refine ⟨log, ?_, ?_, ?_⟩ <;>
          simp only [BlockWriter.flush, present, result, Bool.false_eq_true, ↓reduceIte]
        · exact logged
        · exact tears
        · simp
      | none =>
        have none : torn log = 0 := Nat.le_zero.mp tears
        refine ⟨log, ?_, none ▸ Nat.zero_le _, ?_⟩ <;>
          simp only [BlockWriter.flush, present, result, Bool.false_eq_true, ↓reduceIte]
        · exact flush_sink_logs logged
        · intro _
          rw [dropped rfl, List.drop_length]

private theorem call_logs (call : Call) (writer : BlockWriter) :
    ∃ log, Logged writer (call.perform writer).2 call.data log ∧
      torn log ≤ failed [(call.perform writer).1] := by
  cases call with
  | write data => exact write_logs writer data
  | flush =>
    obtain ⟨log, logged, tears, -⟩ := flush_logs writer
    exact ⟨log, logged, tears⟩
  | writeAll data =>
    cases data with
    | nil => exact ⟨[], logged_nothing writer, Nat.zero_le _⟩
    | cons b data => exact write_logs writer (b :: data)

/-- Calls one after the other: no byte handed over is lost, whatever the calls report, and
each call that failed tore one block at most. -/
theorem run_logs (calls : List Call) (writer : BlockWriter) :
    ∃ log, Logged writer (run calls writer).2 (calls.flatMap Call.data) log ∧
      torn log ≤ failed (run calls writer).1 := by
  induction calls generalizing writer with
  | nil => exact ⟨[], logged_nothing writer, Nat.zero_le _⟩
  | cons call calls ih =>
    obtain ⟨log, logged, tears⟩ := call_logs call writer
    obtain ⟨others, loggedMore, tearsMore⟩ := ih (call.perform writer).2
    refine ⟨log ++ others, logged_trans logged loggedMore, ?_⟩
    rw [torn_append, run, failed_cons]
    exact Nat.add_le_add tears tearsMore

/-! ## Accepted data -/

/-- The data of the calls that reported no fault. -/
def accepted : List Call → List (Option StreamFault) → Bytes
  | call :: calls, none :: faults => call.data ++ accepted calls faults
  | _ :: calls, some _ :: faults => accepted calls faults
  | _, _ => []

private theorem accepted_length (calls : List Call) (writer : BlockWriter) :
    (accepted calls (run calls writer).1).length ≤ (calls.flatMap Call.data).length := by
  induction calls generalizing writer with
  | nil => exact Nat.le_refl _
  | cons call calls ih =>
    have fewer := ih (call.perform writer).2
    rw [List.flatMap_cons, List.length_append, run]
    dsimp only
    cases (call.perform writer).1 with
    | none =>
      rw [accepted, List.length_append]
      exact Nat.add_le_add_left fewer _
    | some fault =>
      rw [accepted]
      exact Nat.le_trans fewer (Nat.le_add_left ..)

/-- All data was accepted just when no failed call handed any over. -/
theorem accepted_all (calls : List Call) (writer : BlockWriter) :
    accepted calls (run calls writer).1 = calls.flatMap Call.data ↔
      ∀ made ∈ calls.zip (run calls writer).1, made.2 ≠ none → made.1.data = [] := by
  induction calls generalizing writer with
  | nil => simp [accepted]
  | cons call calls ih =>
    have others := ih (call.perform writer).2
    rw [run]
    dsimp only
    rw [List.zip_cons_cons, List.forall_mem_cons, List.flatMap_cons, ← others]
    cases (call.perform writer).1 with
    | none =>
      rw [accepted, List.append_cancel_left_eq]
      exact ⟨fun same => ⟨fun failed => absurd rfl failed, same⟩, And.right⟩
    | some fault =>
      rw [accepted]
      constructor
      · intro same
        have fewer := accepted_length calls (call.perform writer).2
        rw [same, List.length_append] at fewer
        have nothing : call.data = [] := List.length_eq_zero_iff.mp (by omega)
        rw [nothing] at same
        exact ⟨fun _ => nothing, same⟩
      · rintro ⟨nothing, same⟩
        rw [nothing (Option.some_ne_none fault), same, List.nil_append]

/-! ## Finished streams -/

theorem whole_bytes (whole : torn log = 0) :
    log.flatMap Attempt.bytes = (written log).flatMap wire := by
  induction log with
  | nil => rfl
  | cons attempt log ih =>
    rw [torn, List.countP_cons, Nat.add_eq_zero_iff] at whole
    cases attempt with
    | torn part => exact absurd whole.2 Nat.one_ne_zero
    | whole plain =>
      rw [List.flatMap_cons, ih whole.1]
      rfl

theorem written_sound (sound : ∀ attempt ∈ log, Attempt.Sound attempt) :
    ∀ plain ∈ written log, Fits plain ∧ plain ≠ [] := by
  intro plain member
  obtain ⟨attempt, there, same⟩ := List.mem_filterMap.mp member
  cases attempt with
  | torn part => cases same
  | whole found =>
    cases same
    exact sound _ there

/-- Once a last flush succeeds the sink holds whole blocks and torn beginnings of
blocks, of these at most one for each call that failed, and the whole blocks hold all
data that any call handed over. If no block was torn, a reader hands out exactly that,
which is what the calls accepted just when no failed call handed any bytes over. -/
theorem finished_stream_holds_all (size : Nat) (calls : List Call) (acceptances : List Acceptance)
    (flushes : List (Option IoFault))
    (made : run calls (BlockWriter.ofSink ⟨[], acceptances, flushes⟩ size) = (reports, middle))
    (finished : middle.flush = (none, writer)) :
    ∃ log : List Attempt, (∀ attempt ∈ log, attempt.Sound) ∧
      writer.sink.taken = log.flatMap Attempt.bytes ∧
      writer.blocksWritten = (written log).length ∧
      (written log).flatten = calls.flatMap Call.data ∧
      torn log ≤ failed reports ∧
      (accepted calls reports = calls.flatMap Call.data ↔
        ∀ call ∈ calls.zip reports, call.2 ≠ none → call.1.data = []) ∧
      (torn log = 0 → ∀ limit source counts, (∀ plain ∈ written log, Admits limit plain) →
        source.content = writer.sink.taken → source.ending = .clean →
        (∀ count ∈ counts, 0 < count) →
        ∃ outs reader rest,
          readEach counts (BlockReader.ofSource source limit) = (outs.map .ok, reader) ∧
          calls.flatMap Call.data = outs.flatten ++ rest ∧
          (∀ front out behind, outs = front ++ out :: behind →
            (out = [] ↔ front.flatten = calls.flatMap Call.data)) ∧
          ((calls.flatMap Call.data).length ≤ counts.length → rest = [])) := by
  obtain ⟨front, logged, tears⟩ :=
    run_logs calls (BlockWriter.ofSink ⟨[], acceptances, flushes⟩ size)
  obtain ⟨last, loggedLast, tearsLast, ended⟩ := flush_logs middle
  have all := accepted_all calls (BlockWriter.ofSink ⟨[], acceptances, flushes⟩ size)
  rw [made] at logged tears all
  rw [finished] at loggedLast tearsLast ended
  have whole := logged_trans logged loggedLast
  have none : torn last = 0 := Nat.le_zero.mp tearsLast
  have taken : writer.sink.taken = (front ++ last).flatMap Attempt.bytes := whole.taken
  have data : (written (front ++ last)).flatten = calls.flatMap Call.data := by
    have kept := whole.kept
    rw [ended rfl, List.append_nil, List.append_nil] at kept
    exact kept.symm
  refine ⟨front ++ last, whole.sound, taken, whole.count.trans (Nat.zero_add _), data, ?_, all, ?_⟩
  · rwa [torn_append, none, Nat.add_zero]
  · intro untorn limit source counts admits holds clean positive
    rw [taken, whole_bytes untorn] at holds
    have sound := written_sound whole.sound
    obtain ⟨outs, reader, rest, results, parts, -, nothing, everything, -⟩ :=
      blocks_read_back (fun plain member => (sound plain member).1) admits
        (fun plain member => (sound plain member).2) holds clean positive
    rw [data] at parts nothing everything
    exact ⟨outs, reader, rest, results, parts, nothing, everything⟩

/-- A write that fails when its block is full, with the sink out of order for one offer,
and another write. The last flush finishes the stream, and it holds the data of both. -/
theorem unwilling_sink_holds_all :
    let fault : IoFault := ⟨.brokenPipe, "sink failed"⟩
    let outcome :=
      run [.write [1, 2, 3], .write [4]] (BlockWriter.ofSink ⟨[], [.fails fault], []⟩ 2)
    outcome.1 = [some (.io fault), none] ∧ outcome.2.flush.1 = none ∧
      ∃ log : List Attempt, outcome.2.flush.2.sink.taken = log.flatMap Attempt.bytes ∧
        outcome.2.flush.2.blocksWritten = (written log).length ∧
        (written log).flatten = [1, 2, 3, 4] ∧ torn log ≤ 1 := by
  intro fault outcome
  have reports : outcome.1 = [some (.io fault), none] := by decide +kernel
  have finished : outcome.2.flush.1 = none := by decide +kernel
  have made : run [.write [1, 2, 3], .write [4]] (BlockWriter.ofSink ⟨[], [.fails fault], []⟩ 2) =
      ([some (.io fault), none], outcome.2) := by rw [← reports]
  obtain ⟨log, -, taken, count, data, tears, -⟩ :=
    finished_stream_holds_all 2 [.write [1, 2, 3], .write [4]] [.fails fault] [] made
      (Prod.ext finished rfl)
  exact ⟨reports, finished, log, taken, count, data, tears⟩

/-- A finished stream may hold what no successful call handed over: the bytes of a write
that failed are written by the next flush. And it may be unreadable: the block of such
bytes comes to stand behind its own torn beginning. -/
theorem failed_write_leaves_traces :
    let fault : IoFault := ⟨.brokenPipe, "sink failed"⟩
    let made := fun acceptances =>
      run [.write [97, 98]] (BlockWriter.ofSink ⟨[], acceptances, []⟩ 2)
    let read := fun acceptances =>
      (readEach [5, 5] (BlockReader.ofSource
        (Source.ofBytes (made acceptances).2.flush.2.sink.taken) Block.defaultLimit)).1
    ((made [.fails fault]).2.flush.1 = none ∧
        accepted [.write [97, 98]] (made [.fails fault]).1 = [] ∧
        read [.fails fault] = [.ok [97, 98], .ok []]) ∧
      (made [.half, .fails fault]).2.flush.1 = none ∧
        accepted [.write [97, 98]] (made [.half, .fails fault]).1 = [] ∧
        read [.half, .fails fault] =
          [.error (.block (.badMark 254)), .error (.block (.failedBefore (.badMark 254)))] := by
  decide +kernel

end SqlWire.WriteFailures
