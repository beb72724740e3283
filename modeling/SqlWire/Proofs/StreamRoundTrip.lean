import SqlWire.Proofs.StreamReading
import SqlWire.Proofs.StreamWriting

/-! The round trip through a stream of blocks: what a writer is handed between its
flushes decides the bytes in the sink, and a reader of these bytes hands out the same
data, whatever the calls, the buffers and the deliveries. -/
namespace SqlWire.StreamRoundTrip
open Transport BlockFraming StreamWriting StreamReading

private theorem encode_each {plains : List Bytes} (fits : ∀ plain ∈ plains, Fits plain) :
    plains.mapM Block.encode = .ok (plains.map wire) := by
  induction plains with
  | nil => rfl
  | cons plain others ih =>
    obtain ⟨here, more⟩ := List.forall_mem_cons.mp fits
    rw [List.mapM_cons, encode_fits here, ih more]
    rfl

/-- A writer with a sink that never fails reports no fault, and once a last flush has
finished it the sink holds the encoded pieces of the data between flushes; a flush where
nothing is pending adds nothing. A reader of these bytes hands out the data of all calls:
a reading yields no bytes exactly when those before it yielded everything. -/
theorem stream_round_trips (size : Nat) (calls : List Call) (sink : Sink) (willing : Willing sink)
    (fits : ∀ piece ∈ pieces (max 1 size) [] calls, Fits piece) :
    ∃ blocks writer, (pieces (max 1 size) [] calls).mapM Block.encode = .ok blocks ∧
      run (calls ++ [.flush]) (BlockWriter.ofSink sink size) =
        (List.replicate (calls.length + 1) none, writer) ∧
      writer.sink.taken = sink.taken ++ blocks.flatten ∧ writer.blocksWritten = blocks.length ∧
      (∀ others, stretches [] others = stretches [] calls →
        (run (others ++ [.flush]) (BlockWriter.ofSink sink size)).2.sink.taken =
          writer.sink.taken) ∧
      (∀ front behind, calls = front ++ behind →
        (run front (BlockWriter.ofSink sink size)).2.pending = [] →
        (run (front ++ .flush :: behind ++ [.flush]) (BlockWriter.ofSink sink size)).2.sink.taken =
          writer.sink.taken) ∧
      ∀ limit source counts, (∀ piece ∈ pieces (max 1 size) [] calls, Admits limit piece) →
        source.content = blocks.flatten → source.ending = .clean → (∀ count ∈ counts, 0 < count) →
        ∃ outs reader rest,
          readEach counts (BlockReader.ofSource source limit) = (outs.map .ok, reader) ∧
          calls.flatMap Call.data = outs.flatten ++ rest ∧
          (∀ asked ∈ outs.zip counts, asked.1.length ≤ asked.2) ∧
          (∀ front out behind, outs = front ++ out :: behind →
            (out = [] ↔ front.flatten = calls.flatMap Call.data)) ∧
          ((calls.flatMap Call.data).length ≤ counts.length → rest = []) ∧
          (rest = [] → reader.blocksRead = writer.blocksWritten) := by
  have short : ([] : Bytes).length < max 1 size := Nat.lt_of_lt_of_le Nat.zero_lt_one (by omega)
  have written : ∀ others, (∀ piece ∈ pieces (max 1 size) [] others, Fits piece) →
      ∃ after, run (others ++ [.flush]) (BlockWriter.ofSink sink size) =
          (List.replicate (others.length + 1) none, after) ∧
        Wrote (BlockWriter.ofSink sink size) after (pieces (max 1 size) [] others) :=
    fun others fits => @run_finishes (BlockWriter.ofSink sink size) willing short others fits
  obtain ⟨writer, results, wrote⟩ := written calls fits
  refine ⟨(pieces (max 1 size) [] calls).map wire, writer, encode_each fits, results, ?_, ?_,
    ?_, ?_, ?_⟩
  · rw [wrote.taken, List.flatMap_def]
    rfl
  · rw [wrote.count, List.length_map]
    exact Nat.zero_add _
  · intro others same
    have parts : pieces (max 1 size) [] others = pieces (max 1 size) [] calls :=
      congrArg (List.flatMap (cut (max 1 size))) same
    obtain ⟨after, result, wroteOther⟩ := written others (parts ▸ fits)
    rw [result, wroteOther.taken, parts]
    exact wrote.taken.symm
  · rintro front behind rfl nothing
    have parts : pieces (max 1 size) [] (front ++ .flush :: behind) =
        pieces (max 1 size) [] (front ++ behind) :=
      @pieces_flush_again (BlockWriter.ofSink sink size) willing short front behind fits nothing
    obtain ⟨after, result, wroteOther⟩ := written _ (parts ▸ fits)
    rw [result, wroteOther.taken, parts]
    exact wrote.taken.symm
  · intro limit source counts admits holds clean positive
    rw [← List.flatMap_def] at holds
    have read := blocks_read_back fits admits (pieces_solid _ _ _) holds clean positive
    rw [pieces_flatten, List.nil_append] at read
    rw [wrote.count]
    simpa only [BlockWriter.ofSink, Nat.zero_add] using read

/-- Two stretches of three and two bytes, written in blocks of two to a sink that takes the
first of them in parts, and read with an interruption and buffers of three bytes. -/
theorem small_stream_round_trips :
    ∃ blocks writer reader, run [.write [1, 2, 3], .flush, .writeAll [4], .write [5], .flush]
        (BlockWriter.ofSink ⟨[], [.upTo 1, .all, .upTo 3], [none]⟩ 2) =
        (List.replicate 5 none, writer) ∧
      [[1, 2], [3], [4, 5]].mapM Block.encode = .ok blocks ∧
      writer.sink.taken = blocks.flatten ∧
      ∃ outs : List Bytes, readEach [3, 3, 3, 3, 3] (BlockReader.ofSource
        ⟨[.interrupted, .bytes blocks.flatten], .clean⟩ 100) = (outs.map .ok, reader) ∧
        outs.flatten = [1, 2, 3, 4, 5] ∧ reader.blocksRead = writer.blocksWritten := by
  have cuts : pieces (max 1 2) [] [.write [1, 2, 3], .flush, .writeAll [4], .write [5]] =
    [[1, 2], [3], [4, 5]] := by simp [pieces, stretches, cut]
  have small : ∀ piece ∈ pieces (max 1 2) [] [.write [1, 2, 3], .flush, .writeAll [4], .write [5]],
      Fits piece ∧ Admits 100 piece := by
    rw [cuts]
    intro piece member
    simp only [List.mem_cons, List.not_mem_nil, or_false] at member
    rcases member with rfl | rfl | rfl
    · exact ⟨⟨by decide, by decide⟩, ⟨by decide, by decide⟩⟩
    · exact ⟨⟨by decide, by decide⟩, ⟨by decide, by decide⟩⟩
    · exact ⟨⟨by decide, by decide⟩, ⟨by decide, by decide⟩⟩
  obtain ⟨blocks, writer, encoded, results, taken, count, _, _, reads⟩ :=
    stream_round_trips 2 [.write [1, 2, 3], .flush, .writeAll [4], .write [5]]
      ⟨[], [.upTo 1, .all, .upTo 3], [none]⟩ ⟨by simp [Takes], by simp⟩
      fun piece member => (small piece member).1
  obtain ⟨outs, reader, rest, result, split, _, _, enough, counted⟩ :=
    reads 100 ⟨[.interrupted, .bytes blocks.flatten], .clean⟩ [3, 3, 3, 3, 3]
      (fun piece member => (small piece member).2) (List.append_nil _) rfl (by decide)
  have everything : rest = [] := enough (by decide)
  rw [cuts] at encoded
  refine ⟨blocks, writer, reader, results, encoded, taken, outs, result, ?_, counted everything⟩
  rw [everything, List.append_nil] at split
  exact split.symm

end SqlWire.StreamRoundTrip
