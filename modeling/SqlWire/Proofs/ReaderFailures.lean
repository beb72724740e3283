import SqlWire.Failure
import SqlWire.Proofs.StreamDecoding

/-! The first fault a reader of blocks reports is final. It closes the reader, and from
then on the reader stays as it is: every reading reports the fault once more, a bad block
in words that cite the first ones, and nothing is asked of a source again. Closing a
reader that has not failed leads to the same end by way of the next reading that wants
bytes. What was handed out before is the front of the plain bytes in the source. -/
namespace SqlWire.ReaderFailures
open Transport BlockFraming StreamReading StreamDecoding

/-! ## Calls -/

/-- What is asked of a reader. -/
inductive Call where
  | read (count : Nat)
  | close
deriving DecidableEq, Repr

/-- What a call returns. -/
inductive Answer where
  | result (result : Except StreamFault Bytes)
  | closed
deriving DecidableEq, Repr

def Call.perform : Call → BlockReader → Answer × BlockReader
  | .read count, reader => (.result (reader.read count).1, (reader.read count).2)
  | .close, reader => (.closed, reader.close)

/-- Make calls one after the other: what each of them returns, and the reader behind
them. A call is made also when one before it failed. -/
def run : List Call → BlockReader → List Answer × BlockReader
  | [], reader => ([], reader)
  | call :: calls, reader =>
    let (answer, reader) := call.perform reader
    let (answers, reader) := run calls reader
    (answer :: answers, reader)

/-- The fault that an answer reports. -/
def Answer.fault? : Answer → Option StreamFault
  | .result (.error fault) => some fault
  | _ => none

/-- The bytes that an answer hands out. -/
def Answer.bytes : Answer → Bytes
  | .result (.ok bytes) => bytes
  | _ => []

/-- The fault that is reported first. -/
def firstFault? (answers : List Answer) : Option StreamFault := answers.findSome? Answer.fault?

/-- All bytes that are handed out. -/
def delivered (answers : List Answer) : Bytes := answers.flatMap Answer.bytes

variable {reader : BlockReader}

private theorem run_append (front behind : List Call) (reader : BlockReader) :
    run (front ++ behind) reader =
      ((run front reader).1 ++ (run behind (run front reader).2).1,
        (run behind (run front reader).2).2) := by
  induction front generalizing reader with
  | nil => rfl
  | cons call front ih => simp [run, ih]

/-! ## Faults -/

/-- A fault that does not repeat another one. -/
def Original : StreamFault → Prop
  | .block fault => ∀ earlier, fault ≠ .failedBefore earlier
  | .io _ => True

/-- The io kind under which a fault reaches whoever reads: a bad block is invalid data. -/
def kindOf : StreamFault → IoKind
  | .block _ => .invalidData
  | .io fault => fault.kind

/-- How a fault is reported again: a bad block in words that cite all words of the first
report, and an io fault as it was. -/
inductive Cites : (first again : StreamFault) → Prop where
  | block (words : again.message =
        "stream closed after earlier failure: " ++ (Failure.block first).message) :
      Cites (.block first) (.block again)
  | io : Cites (.io fault) (.io fault)

private theorem again_cites (first : StreamFault) :
    Cites first (BlockReader.reportAgain first) := by
  cases first with
  | io fault => exact .io
  | block fault =>
    have words : (Block.Fault.failedBefore fault).message =
        "stream closed after earlier failure: " ++ Block.Fault.heading ++ fault.message := rfl
    exact .block (words.trans String.append_assoc)

private theorem again_kind (first : StreamFault) :
    kindOf (BlockReader.reportAgain first) = kindOf first := by
  cases first <;> rfl

/-- Where the blocks of a content stop, no earlier fault is repeated. -/
theorem stop_original (stops : Stops limit ending content stop) :
    ∀ fault ∈ stop, Original fault := by
  cases stops with
  | ended => cases ending <;> simp [endOf, Original]
  | shortDigest => cases ending <;> simp [cutShort, Original]
  | shortHeader => cases ending <;> simp [cutShort, Original]
  | shortPayload => cases ending <;> simp [cutShort, Original]
  | badMark => simp [Original]
  | lengthTooSmall => simp [Original]
  | negativeLength => simp [Original]
  | overLimit => simp [Original]
  | digestMismatch => simp [Original]
  | undecodable => simp [Original]
  | wrongLength => simp [Original]

/-! ## Readings -/

/-- How a reader that has not failed comes out of a reading: still sound, or closed by
a fault that it has not reported before. -/
inductive Comes : Except StreamFault Bytes × BlockReader → Prop where
  | sound {after : BlockReader} (sound : after.failure = none) : Comes (.ok bytes, after)
  | failed (after : BlockReader) (original : Original fault) :
      Comes (.error fault, after.fail fault)

private theorem step_comes (sound : reader.failure = none) :
    (∃ after, BlockReader.pullStep reader = .inl after ∧ after.failure = none) ∨
      ∃ outcome, BlockReader.pullStep reader = .inr outcome ∧ Comes outcome := by
  rw [BlockReader.pullStep]
  cases reader.pending.isEmpty with
  | false => exact .inr ⟨_, rfl, .sound sound⟩
  | true =>
    cases opened : reader.source with
    | none =>
      have original : Original (.block .closed) := by simp [Original]
      exact .inr ⟨_, rfl, .failed reader original⟩
    | some source =>
      rcases valid_or_stops reader.limit source.ending source.content with
        ⟨block, plain, behind, holds, valid⟩ | ⟨stop, stops⟩
      · obtain ⟨after, result, -⟩ := valid_reads valid holds
        simp only [↓reduceIte, result]
        exact .inl ⟨_, rfl, sound⟩
      · obtain ⟨after, result, -⟩ := stops_reads stops
        simp only [↓reduceIte, result]
        cases stop with
        | none => exact .inr ⟨_, rfl, .sound sound⟩
        | some fault => exact .inr ⟨_, rfl, .failed reader (stop_original stops fault rfl)⟩

private theorem steps_come (sound : reader.failure = none) (count : Nat) :
    (∃ after, repeatFor BlockReader.pullStep count reader = .inl after ∧ after.failure = none) ∨
      ∃ outcome, repeatFor BlockReader.pullStep count reader = .inr outcome ∧ Comes outcome := by
  induction count generalizing reader with
  | zero => exact .inl ⟨reader, rfl, sound⟩
  | succ count ih =>
    rw [repeatFor]
    rcases step_comes sound with ⟨after, step, still⟩ | ⟨outcome, step, comes⟩
    · rw [step]
      exact ih still
    · rw [step]
      exact .inr ⟨outcome, rfl, comes⟩

private theorem pull_comes (sound : reader.failure = none) : Comes reader.pull := by
  rw [BlockReader.pull, sound]
  dsimp only
  rw [repeat_over_counts]
  rcases steps_come sound ((bytesOf reader.deliveries).length + 2) with
    ⟨after, steps, still⟩ | ⟨outcome, steps, comes⟩
  · rw [steps]
    exact .sound still
  · rw [steps]
    exact comes

private theorem read_comes (sound : reader.failure = none) (count : Nat) :
    Comes (reader.read count) := by
  rw [BlockReader.read, sound]
  dsimp only
  split
  · exact .sound sound
  · have comes := pull_comes sound
    generalize reader.pull = outcome at comes
    cases comes with
    | sound still => exact .sound still
    | failed after original => exact .failed after original

/-! ## Failed readers -/

/-- A reader that this fault has closed. -/
structure Failed (first : StreamFault) (reader : BlockReader) : Prop where
  failure : reader.failure = some first
  source : reader.source = none
  pending : reader.pending = []

private theorem fail_failed (first : StreamFault) (reader : BlockReader) :
    Failed first (reader.fail first) := ⟨rfl, rfl, rfl⟩

/-- What a failed reader answers: the fault once more, whatever the buffer. -/
def answerAgain (first : StreamFault) : Call → Answer
  | .read _ => .result (.error (BlockReader.reportAgain first))
  | .close => .closed

private theorem close_shut (source : reader.source = none) (pending : reader.pending = []) :
    reader.close = reader := by
  rw [BlockReader.close, ← source, ← pending]

/-- No call changes a failed reader. -/
theorem failed_answers (failed : Failed first reader) (call : Call) :
    call.perform reader = (answerAgain first call, reader) := by
  cases call with
  | read count => simp [Call.perform, BlockReader.read, failed.failure, answerAgain]
  | close => rw [Call.perform, close_shut failed.source failed.pending, answerAgain]

private theorem failed_runs (failed : Failed first reader) (calls : List Call) :
    run calls reader = (calls.map (answerAgain first), reader) := by
  induction calls with
  | nil => rfl
  | cons call calls ih => simp [run, failed_answers failed, ih]

/-- Calls leave a sound reader sound, or closed by the first fault that they report. -/
theorem calls_come (sound : reader.failure = none) (calls : List Call) :
    (firstFault? (run calls reader).1 = none ∧ (run calls reader).2.failure = none) ∨
      ∃ first, firstFault? (run calls reader).1 = some first ∧ Original first ∧
        Failed first (run calls reader).2 := by
  induction calls generalizing reader with
  | nil => exact .inl ⟨rfl, sound⟩
  | cons call calls ih =>
    cases call with
    | close => exact ih sound
    | read count =>
      have comes := read_comes sound count
      simp only [run, Call.perform]
      generalize reader.read count = outcome at comes
      cases comes with
      | sound still => exact ih still
      | @failed fault after original =>
        right
        rw [failed_runs (fail_failed fault after)]
        exact ⟨fault, rfl, original, fail_failed fault after⟩

/-! ## Closed readers -/

/-- Calls that want no bytes. -/
def Idle : Call → Prop
  | .read count => count = 0
  | .close => True

/-- What an idle call is answered with. -/
def idleAnswer : Call → Answer
  | .read _ => .result (.ok [])
  | .close => .closed

private theorem idle_runs (sound : reader.failure = none) (idle : ∀ call ∈ calls, Idle call) :
    run calls reader.close = (calls.map idleAnswer, reader.close) := by
  induction calls with
  | nil => rfl
  | cons call calls ih =>
    obtain ⟨here, others⟩ := List.forall_mem_cons.mp idle
    have same : call.perform reader.close = (idleAnswer call, reader.close) := by
      cases call with
      | read count =>
        obtain rfl : count = 0 := here
        simp [Call.perform, BlockReader.read, BlockReader.close, sound, idleAnswer]
      | close => rfl
    simp [run, same, ih others]

/-- A reading that wants bytes of a closed reader fails. -/
theorem closed_read (sound : reader.failure = none) (shut : reader.source = none)
    (nothing : reader.pending = []) (positive : 0 < count) :
    reader.read count = (.error (.block .closed), reader.fail (.block .closed)) := by
  have step : BlockReader.pullStep reader =
      .inr (.error (.block .closed), reader.fail (.block .closed)) := by
    simp [BlockReader.pullStep, nothing, shut]
  have deliveries : reader.deliveries = [] := by
    rw [BlockReader.deliveries, shut]
    rfl
  rw [BlockReader.read, sound]
  simp only [Nat.ne_of_gt positive, ↓reduceIte, BlockReader.pull, sound, deliveries,
    Source.repeatOver, step]

private theorem shut_answers (shut : reader.source = none) (nothing : reader.pending = [])
    (call : Call) :
    (call.perform reader).1.bytes = [] ∧ (call.perform reader).2.source = none ∧
      (call.perform reader).2.pending = [] := by
  cases call with
  | close => exact ⟨rfl, rfl, rfl⟩
  | read count =>
    cases failure : reader.failure with
    | some fault =>
      rw [failed_answers ⟨failure, shut, nothing⟩]
      exact ⟨rfl, shut, nothing⟩
    | none =>
      rcases Nat.eq_zero_or_pos count with rfl | positive
      · simp [Call.perform, BlockReader.read, failure, Answer.bytes, shut, nothing]
      · rw [Call.perform, closed_read failure shut nothing positive]
        exact ⟨rfl, rfl, rfl⟩

/-- A reader without a source hands out nothing. -/
theorem shut_delivers (shut : reader.source = none) (nothing : reader.pending = [])
    (calls : List Call) : delivered (run calls reader).1 = [] := by
  induction calls generalizing reader with
  | nil => rfl
  | cons call calls ih =>
    obtain ⟨none, shut, nothing⟩ := shut_answers shut nothing call
    have behind := ih shut nothing
    rw [delivered] at behind
    rw [delivered, run, List.flatMap_cons, none, behind]
    rfl

/-! ## Bytes handed out -/

private theorem first_fault_cons (found : Bytes) (answers : List Answer) :
    firstFault? (.result (.ok found) :: answers) = firstFault? answers := rfl

private theorem delivered_cons (found : Bytes) (answers : List Answer) :
    delivered (.result (.ok found) :: answers) = found ++ delivered answers := rfl

/-- Calls hand out the front of what is left, and all of it before they report a fault of
the stream. -/
theorem calls_deliver (reads : Reads reader plains stop) (calls : List Call) :
    delivered (run calls reader).1 <+: left reader plains ∧
      (.close ∉ calls → ∀ first, firstFault? (run calls reader).1 = some first →
        stop = some first ∧ delivered (run calls reader).1 = left reader plains) := by
  induction calls generalizing reader plains with
  | nil => exact ⟨List.nil_prefix, by simp [run, firstFault?]⟩
  | cons call calls ih =>
    cases call with
    | close =>
      have shut : reader.close.source = none := rfl
      have dropped : reader.close.pending = [] := rfl
      have nothing : delivered (run (.close :: calls) reader).1 = [] :=
        shut_delivers shut dropped calls
      rw [nothing]
      exact ⟨List.nil_prefix, fun unclosed => absurd List.mem_cons_self unclosed⟩
    | read count =>
      simp only [run, Call.perform, List.mem_cons, reduceCtorEq, false_or]
      rcases Nat.eq_zero_or_pos count with rfl | positive
      · have idle : reader.read 0 = (.ok [], reader) := by
          simp [BlockReader.read, reads.sound]
        rw [idle]
        exact ih reads
      · rcases read_decodes reads positive with
          ⟨out, after, others, result, -, -, stays, parts⟩ | ⟨nothing, after, result, ended⟩
        · obtain ⟨front, whole⟩ := ih stays
          rw [result, parts, first_fault_cons, delivered_cons, List.prefix_append_right_inj,
            List.append_cancel_left_eq]
          exact ⟨front, whole⟩
        · rw [result, nothing]
          cases stop with
          | none =>
            obtain ⟨front, whole⟩ := ih ended.1
            have empty : left after [] = [] := by rw [left, ended.2]; rfl
            rw [empty] at front whole
            rw [stopped, first_fault_cons, delivered_cons, List.nil_append]
            exact ⟨front, whole⟩
          | some fault =>
            have comes := read_comes reads.sound count
            rw [result, stopped] at comes
            obtain _ | ⟨before, original⟩ := comes
            have none : delivered (run calls (before.fail fault)).1 = [] := shut_delivers rfl rfl calls
            have same : delivered (.result (stopped (some fault)) ::
                (run calls (before.fail fault)).1) = [] := none
            rw [same]
            refine ⟨List.nil_prefix, fun _ first found => ⟨?_, rfl⟩⟩
            exact found

/-- Whatever is read of a source and whenever the reader is closed, the first fault is
final: the reader is closed, holds no bytes and has no source, and it stays exactly so;
each further reading, also one that wants nothing, reports the fault again, as a fault of
the same kind that cites the first and no other, and what was answered before stands.
Closing twice is closing once and drops what was not handed out; the first reading behind
it that wants bytes fails, as finally. The bytes handed out are the front of the plain
bytes in the source, and all of these when the stream itself failed. -/
theorem first_failure_is_final (source : Source) (limit : Nat) (calls : List Call) :
    let start := BlockReader.ofSource source limit
    let answers := (run calls start).1
    let reached := (run calls start).2
    (∀ first, firstFault? answers = some first →
      reached.isClosed ∧ Failed first reached ∧ Original first ∧
        Cites first (BlockReader.reportAgain first) ∧
        kindOf (BlockReader.reportAgain first) = kindOf first ∧
        ∀ more, run (calls ++ more) start = (answers ++ more.map (answerAgain first), reached)) ∧
      (reached.close.close = reached.close ∧ reached.close.isClosed ∧ reached.close.pending = [] ∧
        reached.close.blocksRead = reached.blocksRead ∧
        ∀ more, delivered (run more reached.close).1 = []) ∧
      (firstFault? answers = none → ∀ idle count more, (∀ call ∈ idle, Idle call) → 0 < count →
        run (calls ++ .close :: (idle ++ .read count :: more)) start =
          (answers ++ .closed :: (idle.map idleAnswer ++ .result (.error (.block .closed)) ::
            more.map (answerAgain (.block .closed))), reached.close.fail (.block .closed))) ∧
      ∃ chain plains rest stop, source.content = chain ++ rest ∧ Chain limit chain plains ∧
        Stops limit source.ending rest stop ∧ delivered answers <+: plains.flatten ∧
        (.close ∉ calls → ∀ first, firstFault? answers = some first →
          stop = some first ∧ delivered answers = plains.flatten) := by
  intro start answers reached
  have sound : start.failure = none := rfl
  refine ⟨fun first found => ?_, ⟨rfl, rfl, rfl, rfl, fun more => shut_delivers rfl rfl more⟩,
    fun unfailed idle count more quiet positive => ?_, ?_⟩
  · rcases calls_come sound calls with ⟨none, -⟩ | ⟨fault, same, original, failed⟩
    · cases none.symm.trans found
    · obtain rfl : fault = first := Option.some.inj (same.symm.trans found)
      refine ⟨?_, failed, original, again_cites fault, again_kind fault, fun more => ?_⟩
      · rw [BlockReader.isClosed, failed.source]
        rfl
      · rw [run_append, failed_runs failed]
  · rcases calls_come sound calls with ⟨-, still⟩ | ⟨fault, same, -⟩
    · have kept : reached.close.failure = none := still
      have shut : reached.close.source = none := rfl
      have dropped : reached.close.pending = [] := rfl
      rw [run_append, run, Call.perform]
      dsimp only
      rw [run_append, idle_runs still quiet, run, Call.perform,
        closed_read kept shut dropped positive]
      dsimp only
      rw [failed_runs (fail_failed _ _)]
    · cases unfailed.symm.trans same
  · obtain ⟨chain, plains, rest, stop, parts, blocks, stops⟩ :=
      chain_stops limit source.ending source.content
    have reads : Reads start plains stop := ⟨rfl, source, chain, rest, rfl, parts, blocks, stops⟩
    obtain ⟨front, whole⟩ := calls_deliver reads calls
    exact ⟨chain, plains, rest, stop, parts, blocks, stops, front, whole⟩

/-- A block of two bytes before a torn digest. Read to the fault, the reader repeats it, also
for an empty buffer and behind a closing. Closed after the first byte, it drops the second
one and fails when it is asked for bytes. -/
theorem torn_stream_stays_failed :
    let start := BlockReader.ofSource ⟨[.bytes (wire [7, 8] ++ [1, 2, 3])], .clean⟩ 100
    let torn : StreamFault := .block (.shortDigest 3)
    let again : Answer := .result (.error (.block (.failedBefore (.shortDigest 3))))
    let cited : Answer := .result (.error (.block (.failedBefore .closed)))
    let reached := (run [.read 1, .read 5, .read 5] start).2
    (run [.read 1, .read 5, .read 5] start).1 =
        [.result (.ok [7]), .result (.ok [8]), .result (.error torn)] ∧
      (run [.read 1, .read 5, .read 5, .read 0, .close, .read 1] start).1 =
        [.result (.ok [7]), .result (.ok [8]), .result (.error torn), again, .closed, again] ∧
      (run [.read 1, .read 5, .read 5, .read 0, .close, .read 1] start).2 = reached ∧
      reached.isClosed ∧ reached.blocksRead = 1 ∧
      (run [.read 1, .close, .read 0, .read 4, .read 0] start).1 =
        [.result (.ok [7]), .closed, .result (.ok []), .result (.error (.block .closed)), cited] := by
  intro start torn again cited reached
  have answers : (run [.read 1, .read 5, .read 5] start).1 =
      [.result (.ok [7]), .result (.ok [8]), .result (.error torn)] := by decide +kernel
  have first : (run [.read 1] start).1 = [.result (.ok [7])] := by decide +kernel
  obtain ⟨final, -⟩ := first_failure_is_final _ 100 [.read 1, .read 5, .read 5]
  obtain ⟨-, -, closing, -⟩ := first_failure_is_final _ 100 [.read 1]
  obtain ⟨closed, -, -, -, -, repeats⟩ := final torn (by rw [answers]; rfl)
  have later := repeats [.read 0, .close, .read 1]
  have shut := closing (by rw [first]; rfl) [.read 0] 4 [.read 0] (by simp [Idle]) (by decide)
  rw [answers] at later
  rw [first] at shut
  obtain ⟨repeated, stays⟩ := Prod.ext_iff.mp later
  exact ⟨answers, repeated, stays, closed, by decide +kernel, (Prod.ext_iff.mp shut).1⟩

end SqlWire.ReaderFailures
