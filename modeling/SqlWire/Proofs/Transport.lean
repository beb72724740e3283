import SqlWire.Wire.Source

/-! Reading and writing past the behaviour of a source or a sink. What a source
hands out is its content, however it is cut into deliveries and wherever the reader
is interrupted; and a sink that never fails holds what it was offered, however
little of it was taken at a time. -/
namespace SqlWire.Transport
open Source

/-! ## Sources -/

/-- All bytes in a list of deliveries. -/
abbrev bytesOf (deliveries : List Delivery) : Bytes := content ⟨deliveries, .clean⟩

private theorem bytes_of_cons (run : Bytes) (rest : List Delivery) :
    bytesOf (.bytes run :: rest) = run ++ bytesOf rest := rfl

private theorem take_from_takes (count : Nat) (deliveries : List Delivery) :
    (takeFrom count deliveries).1 = (bytesOf deliveries).take count ∧
      bytesOf (takeFrom count deliveries).2 = (bytesOf deliveries).drop count := by
  induction deliveries generalizing count with
  | nil => cases count <;> exact ⟨rfl, rfl⟩
  | cons delivery rest ih =>
    cases count with
    | zero => exact ⟨rfl, rfl⟩
    | succ count =>
      cases delivery with
      | interrupted => exact ih (count + 1)
      | bytes run =>
        obtain ⟨more, left⟩ := ih (count + 1 - run.length)
        rw [takeFrom, bytes_of_cons, List.take_append, List.drop_append]
        cases behind : run.drop (count + 1) with
        | nil =>
          have short : run.length ≤ count + 1 := List.drop_eq_nil_iff.mp behind
          rw [List.take_of_length_le short]
          exact ⟨congrArg (run ++ ·) more, left⟩
        | cons b others =>
          have long : count + 1 < run.length := by
            refine Nat.lt_of_not_le fun short => ?_
            rw [List.drop_of_length_le short] at behind
            cases behind
          rw [Nat.sub_eq_zero_of_le (Nat.le_of_lt long)]
          exact ⟨(List.append_nil _).symm, rfl⟩

/-- What a reading yields of content before an ending. -/
def reading (count : Nat) (content : Bytes) (ending : Ending) : Except IoFault Bytes :=
  if count ≤ content.length then .ok (content.take count)
  else
    match ending with
    | .clean => .ok content
    | .fails fault => .error fault

/-- A reading does not depend on the deliveries. -/
theorem read_takes (source : Source) (count : Nat) :
    ∃ rest : Source, source.read count = (reading count source.content source.ending, rest) ∧
      rest.content = source.content.drop count ∧ rest.ending = source.ending := by
  obtain ⟨deliveries, ending⟩ := source
  obtain ⟨taken, left⟩ := take_from_takes count deliveries
  refine ⟨⟨(takeFrom count deliveries).2, ending⟩, ?_, left, rfl⟩
  show _ = (reading count (bytesOf deliveries) ending, _)
  simp only [Source.read, taken, List.length_take, reading]
  by_cases enough : count ≤ (bytesOf deliveries).length
  · rw [if_pos (Nat.min_eq_left enough), if_pos enough]
  · rw [if_neg (by omega), if_neg enough, List.take_of_length_le (by omega)]
    cases ending <;> rfl

/-- What is read of a source is the front of its content, if that is long enough. -/
theorem read_front {source : Source} (holds : source.content = front ++ behind) :
    ∃ rest : Source, source.read front.length = (.ok front, rest) ∧ rest.content = behind ∧
      rest.ending = source.ending := by
  obtain ⟨rest, result, left, ending⟩ := read_takes source front.length
  rw [holds, List.drop_left] at left
  rw [holds, reading.eq_def, List.take_left, if_pos (by simp)] at result
  exact ⟨rest, result, left, ending⟩

/-- A source that ended cleanly has no more bytes to read. -/
theorem read_ended {source : Source} (done : source.content = []) (clean : source.ending = .clean)
    (count : Nat) :
    ∃ rest : Source, source.read count = (.ok [], rest) ∧ rest.content = [] ∧
      rest.ending = .clean := by
  obtain ⟨rest, result, left, ending⟩ := read_takes source count
  rw [done, List.drop_nil] at left
  rw [done, clean, reading, List.take_nil, ite_self] at result
  exact ⟨rest, result, left, ending.trans clean⟩

/-! ## Steps -/

/-- Take at most so many steps, until one comes to a result. -/
def repeatFor {σ ρ : Type} (step : σ → σ ⊕ ρ) : Nat → σ → σ ⊕ ρ
  | 0, state => .inl state
  | count + 1, state =>
    match step state with
    | .inl state => repeatFor step count state
    | .inr result => .inr result

private theorem step_over_counts {σ ρ : Type} (step go : σ → σ ⊕ ρ)
    (behind : ∀ state, go state = repeatFor step count state) (run : Bytes) (state : σ) :
    stepOver step go run state = repeatFor step (run.length + count) state := by
  induction run generalizing state with
  | nil => rw [stepOver, behind, List.length_nil, Nat.zero_add]
  | cons b run ih =>
    rw [stepOver, List.length_cons, Nat.add_right_comm, repeatFor]
    cases step state with
    | inl state => exact ih state
    | inr result => rfl

/-- The steps that a list of deliveries allows are two more than its bytes. -/
theorem repeat_over_counts {σ ρ : Type} (step : σ → σ ⊕ ρ) (deliveries : List Delivery)
    (state : σ) :
    repeatOver step deliveries state = repeatFor step ((bytesOf deliveries).length + 2) state := by
  induction deliveries generalizing state with
  | nil =>
    show _ = repeatFor step 2 state
    rw [repeatOver, repeatFor]
    cases step state with
    | inl state =>
      show step state = repeatFor step 1 state
      rw [repeatFor]
      cases step state <;> rfl
    | inr result => rfl
  | cons delivery rest ih =>
    cases delivery with
    | interrupted => exact ih state
    | bytes run =>
      rw [repeatOver, step_over_counts step _ ih, bytes_of_cons, List.length_append, Nat.add_assoc]

/-! ## Sinks -/

/-- Whether a part is taken of whatever is offered. The half of one byte is none. -/
def Takes : Acceptance → Prop
  | .all => True
  | .half => False
  | .upTo most => 0 < most
  | .fails _ => False

/-- A sink that never fails. -/
structure Willing (sink : Sink) : Prop where
  takes : ∀ acceptance ∈ sink.acceptances, Takes acceptance
  flushes : ∀ outcome ∈ sink.flushes, outcome = none

private theorem write_from_takes (takes : ∀ acceptance ∈ script, Takes acceptance)
    (runs : List Bytes)
    (offered : Bytes) :
    ∃ after rest, Sink.writeFrom runs script offered = (none, after, rest) ∧
      after.reverse.flatten = runs.reverse.flatten ++ offered ∧
      ∀ acceptance ∈ rest, Takes acceptance := by
  induction script generalizing runs offered with
  | nil =>
    cases offered with
    | nil => exact ⟨runs, [], rfl, (List.append_nil _).symm, takes⟩
    | cons b offered => exact ⟨(b :: offered) :: runs, [], rfl, by simp, takes⟩
  | cons acceptance script ih =>
    obtain ⟨here, others⟩ := List.forall_mem_cons.mp takes
    cases offered with
    | nil => exact ⟨runs, _, rfl, (List.append_nil _).symm, takes⟩
    | cons b offered =>
      cases acceptance with
      | all => exact ⟨(b :: offered) :: runs, script, rfl, by simp, others⟩
      | half => cases here
      | fails fault => cases here
      | upTo most =>
        obtain ⟨after, rest, written, holds, kept⟩ :=
          ih others ((b :: offered).take most :: runs) ((b :: offered).drop most)
        refine ⟨after, rest, ?_, ?_, kept⟩
        · rw [Sink.writeFrom, if_neg (Nat.ne_of_gt here), written]
          exact List.cons_ne_nil b offered
        · rw [holds]
          simp

theorem write_takes (willing : Willing sink) (bytes : Bytes) :
    ∃ after : Sink, sink.write bytes = (none, after) ∧ after.taken = sink.taken ++ bytes ∧
      Willing after := by
  obtain ⟨after, rest, written, holds, kept⟩ := write_from_takes willing.takes sink.runs bytes
  refine ⟨⟨after, rest, sink.flushes⟩, ?_, holds, ⟨kept, willing.flushes⟩⟩
  rw [Sink.write, written]

theorem flush_passes (willing : Willing sink) :
    ∃ after : Sink, sink.flush = (none, after) ∧ after.taken = sink.taken ∧ Willing after := by
  obtain ⟨runs, acceptances, flushes⟩ := sink
  cases flushes with
  | nil => exact ⟨_, rfl, rfl, willing⟩
  | cons outcome rest =>
    obtain ⟨here, others⟩ := List.forall_mem_cons.mp willing.flushes
    rw [here]
    exact ⟨⟨runs, acceptances, rest⟩, rfl, rfl, willing.takes, others⟩

end SqlWire.Transport
