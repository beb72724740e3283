import Mathlib.Data.List.Induction
import SqlWire.Proofs.Emissions

/-! How many plain bytes a block holds. A write cuts full blocks off what is pending, and a
flush makes one block of whatever is left. That is less than a full block as long as writes
succeed; a write that failed leaves a full block or more, and a flush behind it then makes a
block of all that, of any length. -/
namespace SqlWire.BlockSizes
open Transport BlockFraming StreamWriting WriteFailures Emissions

/-- A write reported a fault, and no block was written since. -/
def Backlogged (calls : List Call) (writer : BlockWriter) : Prop :=
  ∃ front call behind, calls = front ++ call :: behind ∧ call ≠ .flush ∧
    (call.perform (run front writer).2).1 ≠ none ∧
    completed (emissions behind (call.perform (run front writer).2).2) = []

/-! ## Runs -/

private theorem run_size (calls : List Call) (writer : BlockWriter) :
    (run calls writer).2.blockSize = writer.blockSize := by
  obtain ⟨-, -, size⟩ := reaches_keeps (run_reaches calls writer)
  exact size

private theorem emissions_append (front behind : List Call) (writer : BlockWriter) :
    emissions (front ++ behind) writer =
      emissions front writer ++ emissions behind (run front writer).2 := by
  induction front generalizing writer with
  | nil => rfl
  | cons call front ih =>
    rw [List.cons_append, emissions, emissions, ih, List.append_assoc]
    rfl

/-- Every emission of a run belongs to one of its calls. -/
theorem emission_of_call {writer : BlockWriter} (member : emission ∈ emissions calls writer) :
    ∃ front call back, calls = front ++ call :: back ∧
      emission ∈ callEmissions call (run front writer).2 := by
  induction calls generalizing writer with
  | nil => cases member
  | cons call calls ih =>
    rcases List.mem_append.mp member with here | later
    · exact ⟨[], call, calls, rfl, here⟩
    · obtain ⟨front, other, back, rfl, there⟩ := ih later
      exact ⟨call :: front, other, back, rfl, there⟩

private theorem call_emission {writer : BlockWriter}
    (member : emission ∈ callEmissions call (run front writer).2) (back : List Call) :
    emission ∈ emissions (front ++ call :: back) writer := by
  rw [emissions_append]
  apply List.mem_append_right
  exact List.mem_append_left _ member

/-! ## Blocks of one call -/

/-- The blocks that are cut off what is pending are full. -/
theorem full_block {writer : BlockWriter}
    (enough : count * writer.blockSize ≤ writer.pending.length)
    (member : emission ∈ fullEmissions count writer) :
    emission.plain.length = writer.blockSize := by
  induction count generalizing writer with
  | zero => cases member
  | succ count ih =>
    rw [Nat.succ_mul] at enough
    rcases List.mem_cons.mp member with rfl | later
    · exact List.length_take_of_le (Nat.le_trans (Nat.le_add_left ..) enough)
    · split at later
      next done =>
        obtain ⟨-, -, left, -⟩ := completed_writes (Option.isNone_iff_eq_none.mp done)
        have size := emission_size ⟨writer, writer.blockSize⟩
        rw [← size]
        apply ih _ later
        rw [left, size, List.length_drop]
        exact Nat.le_sub_of_add_le enough
      next => cases later

private theorem write_block (member : emission ∈ writeEmissions data writer) :
    emission.plain.length = writer.blockSize := by
  apply @full_block _ _ { writer with pending := writer.pending ++ data } _ member
  exact Nat.div_mul_le_self ..

/-- A write makes full blocks, and a flush one of all that is pending. -/
theorem call_block (member : emission ∈ callEmissions call writer) :
    call ≠ .flush ∧ emission.plain.length = writer.blockSize ∨
      call = .flush ∧ emission = ⟨writer, writer.pending.length⟩ ∧ writer.pending ≠ [] := by
  cases call with
  | write data => exact .inl ⟨Call.noConfusion, write_block member⟩
  | writeAll data =>
    rw [callEmissions] at member
    split at member
    · cases member
    · exact .inl ⟨Call.noConfusion, write_block member⟩
  | flush =>
    rw [callEmissions] at member
    split at member
    · cases member
    next some =>
      refine .inr ⟨rfl, List.mem_singleton.mp member, ?_⟩
      exact fun nothing => some (List.isEmpty_iff.mpr nothing)

private theorem whole_plain (writer : BlockWriter) :
    (Emission.mk writer writer.pending.length).plain = writer.pending := List.take_length

/-! ## What a call leaves -/

/-- Where cutting full blocks off fails, a full block at least is still pending. -/
theorem full_failure_keeps {writer : BlockWriter}
    (enough : count * writer.blockSize ≤ writer.pending.length)
    (failed : (writer.emitFull count).1 ≠ none) :
    writer.blockSize ≤ (writer.emitFull count).2.pending.length := by
  induction count generalizing writer with
  | zero => exact absurd rfl failed
  | succ count ih =>
    rw [Nat.succ_mul] at enough
    rw [BlockWriter.emitFull] at failed ⊢
    rcases emit_cases writer writer.blockSize with ⟨sink, -, result, -⟩ | ⟨fault, sink, result⟩
    · rw [result] at failed ⊢
      apply ih _ failed
      rw [List.length_drop]
      exact Nat.le_sub_of_add_le enough
    · rw [result]
      exact Nat.le_trans (Nat.le_add_left ..) enough

private theorem write_failure_keeps {writer : BlockWriter} (failed : (writer.write data).1 ≠ none) :
    writer.blockSize ≤ (writer.write data).2.pending.length := by
  have enough := Nat.div_mul_le_self (writer.pending ++ data).length writer.blockSize
  exact full_failure_keeps enough failed

/-- A flush whose block fails leaves all that was pending, and any other leaves nothing. -/
theorem flush_leaves (writer : BlockWriter) :
    writer.flush.2.pending = [] ∨
      writer.flush.2.pending = writer.pending ∧ completed (callEmissions .flush writer) = [] := by
  unfold BlockWriter.flush callEmissions
  cases nothing : writer.pending.isEmpty with
  | true => exact .inl (List.isEmpty_iff.mp nothing)
  | false =>
    simp only [nothing, Bool.false_eq_true, ↓reduceIte]
    rcases emit_cases writer writer.pending.length with
      ⟨sink, -, result, -⟩ | ⟨fault, sink, result⟩
    · rw [result]
      exact .inl List.drop_length
    · have torn : (Emission.mk writer writer.pending.length).fault ≠ none := by
        rw [Emission.fault, result]
        exact Option.some_ne_none _
      rw [result, completed_cons, if_neg torn]
      exact .inr ⟨rfl, rfl⟩

/-- Behind a call less than a full block is pending, or it was a write that failed, or what
was pending still is and no block was written. -/
theorem call_leaves (call : Call) (writer : BlockWriter) :
    (call.perform writer).2.pending.length < writer.blockSize ∨
      call ≠ .flush ∧ (call.perform writer).1 ≠ none ∨
      (call.perform writer).2.pending = writer.pending ∧
        completed (callEmissions call writer) = [] := by
  have wrote : ∀ data, (writer.write data).2.pending.length < writer.blockSize ∨
      (writer.write data).1 ≠ none := by
    intro data
    by_cases done : (writer.write data).1 = none
    · exact .inl (write_leaves done)
    · exact .inr done
  cases call with
  | write data => exact (wrote data).imp_right fun failed => .inl ⟨Call.noConfusion, failed⟩
  | writeAll data =>
    cases data with
    | nil => exact .inr (.inr ⟨rfl, rfl⟩)
    | cons b data =>
      exact (wrote (b :: data)).imp_right fun failed => .inl ⟨Call.noConfusion, failed⟩
  | flush =>
    rcases flush_leaves writer with nothing | kept
    · refine .inl ?_
      rw [Call.perform, nothing]
      exact writer.blockSize_pos
    · exact .inr (.inr kept)

/-! ## What a run leaves -/

private theorem failed_write_backlogs {call : Call} {writer : BlockWriter} (writes : call ≠ .flush)
    (failed : (call.perform writer).1 ≠ none) :
    writer.blockSize ≤ (call.perform writer).2.pending.length := by
  cases call with
  | write data => exact write_failure_keeps failed
  | writeAll data =>
    cases data with
    | nil => exact absurd rfl failed
    | cons b data => exact write_failure_keeps failed
  | flush => exact absurd rfl writes

private theorem backlogged_snoc (backlogged : Backlogged calls writer)
    (idle : completed (callEmissions call (run calls writer).2) = []) :
    Backlogged (calls ++ [call]) writer := by
  obtain ⟨front, failing, behind, rfl, writes, failed, nothing⟩ := backlogged
  refine ⟨front, failing, behind ++ [call], by simp, writes, failed, ?_⟩
  have reached : (run (front ++ failing :: behind) writer).2 =
      (run behind (failing.perform (run front writer).2).2).2 := by
    rw [run_append, run]
  rw [reached] at idle
  rw [emissions_append]
  unfold completed at nothing idle ⊢
  rw [List.filter_append, List.map_append, nothing, emissions, emissions, List.append_nil, idle]
  rfl

/-- A full block or more is pending just when a write failed and no block was written
since. -/
theorem pending_full_iff {writer : BlockWriter} (room : writer.pending.length < writer.blockSize)
    (calls : List Call) :
    writer.blockSize ≤ (run calls writer).2.pending.length ↔ Backlogged calls writer := by
  constructor
  · induction calls using List.reverseRecOn with
    | nil =>
      intro full
      exact absurd room (Nat.not_lt.mpr full)
    | append_singleton calls call ih =>
      intro full
      have last : (run (calls ++ [call]) writer).2 = (call.perform (run calls writer).2).2 := by
        rw [run_append]
        rfl
      rw [last] at full
      rcases call_leaves call (run calls writer).2 with short | ⟨writes, failed⟩ | ⟨same, idle⟩
      · rw [run_size] at short
        exact absurd short (Nat.not_lt.mpr full)
      · exact ⟨calls, call, [], rfl, writes, failed, rfl⟩
      · rw [same] at full
        exact backlogged_snoc (ih full) idle
  · rintro ⟨front, call, behind, rfl, writes, failed, idle⟩
    have full := failed_write_backlogs writes failed
    obtain ⟨kept, -, -⟩ := reaches_keeps
      (run_reaches behind (call.perform (run front writer).2).2)
    rw [idle, List.flatten_nil, List.nil_append] at kept
    rw [run_append, run]
    dsimp only
    rw [← kept, List.length_append]
    rw [run_size] at full
    exact Nat.le_add_right_of_le full

/-- What a call of a run reports stands at its place among the reports. -/
theorem report_of_call (front : List Call) (call : Call) (back : List Call)
    (writer : BlockWriter) :
    (call, (call.perform (run front writer).2).1) ∈
      (front ++ call :: back).zip (run (front ++ call :: back) writer).1 := by
  induction front generalizing writer with
  | nil => exact List.mem_cons_self
  | cons other front ih => exact List.mem_cons_of_mem _ (ih (other.perform writer).2)

/-- Every block holds a byte or more. Just those hold more than a full block that a flush makes
of more than that, and a full block or more is pending just where a write reported a fault and
no block was written since. So no block is longer than a full one where no write reports a
fault, whatever else the sink does. -/
theorem only_backlogs_outgrow_blocks (size : Nat) (calls : List Call) (sink : Sink) :
    let start := BlockWriter.ofSink sink size
    let bound := max 1 size
    let made := emissions calls start
    Reaches start (calls.flatMap Call.data) made (run calls start).2 ∧
      (∀ emission ∈ made, 1 ≤ emission.plain.length ∧
        (bound < emission.plain.length ↔ ∃ front back, calls = front ++ .flush :: back ∧
          emission = ⟨(run front start).2, (run front start).2.pending.length⟩ ∧
          bound < (run front start).2.pending.length)) ∧
      (∀ front back, calls = front ++ .flush :: back → (run front start).2.pending ≠ [] →
        ⟨(run front start).2, (run front start).2.pending.length⟩ ∈ made) ∧
      (∀ front, front <+: calls →
        (bound ≤ (run front start).2.pending.length ↔ Backlogged front start)) ∧
      ((∀ report ∈ calls.zip (run calls start).1, report.1 ≠ .flush → report.2 = none) →
        ∀ emission ∈ made, emission.plain.length ≤ bound) := by
  intro start bound made
  have positive : 1 ≤ bound := Nat.le_max_left ..
  have room : start.pending.length < start.blockSize := positive
  have sizes : ∀ emission ∈ made, 1 ≤ emission.plain.length ∧
      (bound < emission.plain.length ↔ ∃ front back, calls = front ++ .flush :: back ∧
        emission = ⟨(run front start).2, (run front start).2.pending.length⟩ ∧
        bound < (run front start).2.pending.length) := by
    intro emission member
    obtain ⟨front, call, back, parts, here⟩ := emission_of_call member
    rcases call_block here with ⟨-, full⟩ | ⟨rfl, rfl, some⟩
    · have whole : emission.plain.length = bound := full.trans (run_size front start)
      refine ⟨positive.trans_eq whole.symm, ?_, ?_⟩
      · intro longer
        exact absurd whole (Nat.ne_of_gt longer)
      · rintro ⟨other, -, -, rfl, longer⟩
        rwa [whole_plain]
    · rw [whole_plain]
      refine ⟨List.length_pos_iff.mpr some, ?_, ?_⟩
      · intro longer
        exact ⟨front, back, parts, rfl, longer⟩
      · rintro ⟨other, -, -, same, longer⟩
        rwa [← (Emission.mk.inj same).1] at longer
  refine ⟨run_reaches calls start, sizes, ?_, fun front _ => pending_full_iff room front, ?_⟩
  · rintro front back rfl some
    apply call_emission
    rw [callEmissions, if_neg (fun nothing => some (List.isEmpty_iff.mp nothing))]
    exact List.mem_singleton_self _
  · intro quiet emission member
    apply Nat.le_of_not_lt
    intro longer
    obtain ⟨front, back, rfl, -, overfull⟩ := (sizes emission member).2.mp longer
    obtain ⟨before, call, behind, rfl, writes, failed, -⟩ :=
      (pending_full_iff room front).mp (Nat.le_of_lt overfull)
    apply failed
    apply quiet (call, (call.perform (run before start).2).1) _ writes
    rw [List.append_assoc, List.cons_append]
    exact report_of_call before call _ start

/-- A sink that fails to flush leaves the blocks as they are; the byte that a write left behind
is a block of its own. -/
theorem failed_flush_keeps_size :
    let fault : IoFault := ⟨.timedOut, "flush failed"⟩
    let start := BlockWriter.ofSink ⟨[], [], [some fault]⟩ 2
    let calls := [.write [1, 2, 3], .flush, .write [4]]
    let made := emissions calls start
    (run calls start).1 = [none, some (.io fault), none] ∧
      made.map Emission.plain = [[1, 2], [3]] ∧
      (∀ emission ∈ made, 1 ≤ emission.plain.length ∧ emission.plain.length ≤ 2) ∧
      ⟨(run [.write [1, 2, 3]] start).2, 1⟩ ∈ made ∧ ¬ Backlogged [.write [1, 2, 3]] start := by
  intro fault start calls made
  have reports : (run calls start).1 = [none, some (.io fault), none] := by decide +kernel
  have plain : made.map Emission.plain = [[1, 2], [3]] := by decide +kernel
  have left : (run [.write [1, 2, 3]] start).2.pending = [3] := by decide +kernel
  have front : [.write [1, 2, 3]] <+: calls := List.prefix_append _ _
  obtain ⟨-, sizes, flushed, backlog, quiet⟩ :=
    only_backlogs_outgrow_blocks 2 calls ⟨[], [], [some fault]⟩
  refine ⟨reports, plain, fun emission member => ⟨(sizes emission member).1, ?_⟩, ?_, ?_⟩
  · apply quiet _ emission member
    decide +kernel
  · have some : (run [.write [1, 2, 3]] start).2.pending ≠ [] :=
      left.trans_ne (List.cons_ne_nil 3 [])
    have block := flushed [.write [1, 2, 3]] [.write [4]] rfl some
    rwa [left] at block
  · rw [← backlog _ front, left]
    exact Nat.not_succ_le_self 1

/-- Behind a write that failed, a flush makes one block of all five bytes, though a full block
has two, and the sink takes it. -/
theorem failed_write_swells_block :
    let fault : IoFault := ⟨.brokenPipe, "sink failed"⟩
    let start := BlockWriter.ofSink ⟨[], [.fails fault], []⟩ 2
    let calls := [.write [1, 2, 3, 4, 5], .flush]
    let made := emissions calls start
    made.map (fun emission => (emission.plain, emission.fault)) =
        [([1, 2], some (.io fault)), ([1, 2, 3, 4, 5], none)] ∧
      (run calls start).2.sink.taken = wire [1, 2, 3, 4, 5] ∧
      ¬ ∀ emission ∈ made, 1 ≤ emission.plain.length ∧ emission.plain.length ≤ 2 := by
  intro fault start calls made
  have attempts : made.map (fun emission => (emission.plain, emission.fault)) =
      [([1, 2], some (.io fault)), ([1, 2, 3, 4, 5], none)] := by decide +kernel
  refine ⟨attempts, by decide +kernel, fun within => ?_⟩
  have swollen : ([1, 2, 3, 4, 5], none) ∈
      made.map fun emission => (emission.plain, emission.fault) := by
    rw [attempts]
    exact List.mem_cons_of_mem _ (List.mem_singleton_self _)
  obtain ⟨emission, member, same⟩ := List.mem_map.mp swollen
  have short := (within emission member).2
  rw [(Prod.mk.inj same).1] at short
  exact absurd short (by decide)

end SqlWire.BlockSizes
