import SqlWire.Proofs.StreamDecoding
import SqlWire.Proofs.WriteFailures

/-! What a reader makes of a stream of which one block was altered. It hands out the
plain bytes of the blocks before that one, and no byte of it: an altered digest is found
not to match, and so is an altered payload, before it is expanded. An altered header may
move the end of the block to anywhere, and still the reader fails there, unless the digest
of the altered header with the payload it declares is the same. -/
namespace SqlWire.Corruption
open Transport BlockFraming StreamWriting StreamReading StreamDecoding WriteFailures

/-! ## Digests as bytes -/

private theorem little_endian_bytes (width number : Nat) : Block.littleEndian width number =
    (List.range width).map fun i => UInt8.ofNat (number / 256 ^ i % 256) := by
  induction width generalizing number with
  | zero => rfl
  | succ width ih =>
    rw [Block.littleEndian, ih, List.range_succ_eq_map, List.map_cons, List.map_map, Nat.pow_zero,
      Nat.div_one]
    congr 1
    refine List.map_congr_left fun i _ => ?_
    simp [Nat.div_div_eq_div_mul, Nat.pow_succ, Nat.mul_comm]

private theorem word_bytes (word : UInt64) :
    Digest.wordBytes word = Block.littleEndian 8 word.toNat := by
  rw [little_endian_bytes, Digest.wordBytes]
  refine List.map_congr_left fun i inside => ?_
  have small : 8 * i < 64 := by
    have := List.mem_range.mp inside
    omega
  have shift : (UInt64.ofNat (8 * i)).toNat % 64 = 8 * i := by
    rw [UInt64.toNat_ofNat_of_lt' (Nat.lt_trans small (by decide)), Nat.mod_eq_of_lt small]
  apply UInt8.toNat_inj.mp
  rw [UInt64.toNat_toUInt8, UInt64.toNat_shiftRight, shift, Nat.shiftRight_eq_div_pow, Nat.pow_mul,
    UInt8.toNat_ofNat_of_lt' (Nat.mod_lt _ (by decide))]

private theorem word_bytes_injective {word other : UInt64}
    (same : Digest.wordBytes word = Digest.wordBytes other) : word = other := by
  have reads : ∀ word : UInt64, Block.ofLittleEndian (Digest.wordBytes word) = word.toNat :=
    fun word => by rw [word_bytes, little_endian_reads (UInt64.toNat_lt word)]
  apply UInt64.toNat_inj.mp
  rw [← reads word, ← reads other, same]

private theorem pair_bytes_injective {pair other : Digest.Pair}
    (same : pair.toBytes = other.toBytes) :
    pair = other := by
  have width : ∀ word, (Digest.wordBytes word).length = 8 := by simp [Digest.wordBytes]
  obtain ⟨low, high⟩ := pair
  obtain ⟨otherLow, otherHigh⟩ := other
  obtain ⟨lows, highs⟩ := List.append_inj same (by rw [width, width])
  exact congrArg₂ Digest.Pair.mk (word_bytes_injective lows) (word_bytes_injective highs)

/-- The sixteen bytes that guard a block tell its digest. -/
theorem checksum_injective {bytes other : Bytes}
    (same : Digest.checksum bytes = Digest.checksum other) : Digest.of bytes = Digest.of other :=
  pair_bytes_injective same

/-! ## Altered blocks -/

/-- Header and digest in front of the payload of plain bytes, with a digest of any kind. -/
def frontWith (digest plain : Bytes) (full : digest.length = Block.digestLength) : Front :=
  ⟨digest, Block.mark,
    Block.littleEndian 4 ((Lz4.compress plain).length + Block.headerLength),
    Block.littleEndian 4 plain.length, full, little_endian_length 4 _, little_endian_length 4 _⟩

theorem front_with_declares (fits : Fits plain) (full : digest.length = Block.digestLength) :
    Declares (frontWith digest plain full) (Lz4.compress plain).length plain.length :=
  ⟨rfl, signed_reads fits.payload, signed_reads fits.plain⟩

/-- Behind the header of a block, a payload of the length it declares that does not match
the digest in front of it is not looked into. -/
theorem mismatch_stops (fits : Fits plain) (admits : Admits limit plain)
    (full : digest.length = Block.digestLength)
    (same : payload.length = (Lz4.compress plain).length)
    (differs : Digest.checksum
      (Block.header (Lz4.compress plain).length plain.length ++ payload) ≠ digest) :
    Stops limit .clean
      (digest ++ Block.header (Lz4.compress plain).length plain.length ++ payload ++ rest)
      (some (.block .digestMismatch)) := by
  have declared := front_with_declares fits full
  rw [← same] at declared
  exact .digestMismatch declared ⟨same ▸ admits.payload, admits.plain⟩ differs

/-- The payload that a header declares, when all of it is there, in front of the bytes
behind the header. -/
structure DeclaredPayload (header payload behind : Bytes) : Prop where
  front : payload <+: behind
  length : Block.signed32 ((header.drop 1).take 4) = payload.length + Block.headerLength

private theorem header_fields (front : Front) :
    (front.header.drop 1).take 4 = front.compressed := by
  simp [Front.header, ← front.compressed_length]

private theorem declared_payload (declared : Declares front payload.length plain) :
    DeclaredPayload front.header payload (payload ++ rest) :=
  ⟨List.prefix_append .., by rw [header_fields, declared.payload]⟩

/-- A clean end is no stop where there are bytes. -/
theorem clean_stop_is_fault (stops : Stops limit .clean content stop) (present : content ≠ []) :
    ∃ fault, stop = some (.block fault) := by
  cases stops with
  | ended => exact absurd rfl present
  | _ => exact ⟨_, rfl⟩

/-- Bytes that begin with a digest and as many bytes as a header has stop the reader, unless
the header and the payload it declares have this digest. -/
theorem altered_stops (limit : Nat) (full : digest.length = Block.digestLength)
    (width : header.length = Block.headerLength)
    (differs : ∀ declared, DeclaredPayload header declared (payload ++ rest) →
      Digest.checksum (header ++ declared) ≠ digest) :
    ∃ fault, Stops limit .clean (digest ++ header ++ payload ++ rest)
      (some (.block fault)) := by
  rw [List.append_assoc, List.append_assoc]
  generalize payload ++ rest = behind at differs
  rcases valid_or_stops limit .clean (digest ++ (header ++ behind)) with
    ⟨block, plain, rest, holds, valid⟩ | ⟨stop, stops⟩
  · obtain @⟨front, payload, plain, declared, -, sound, -⟩ := valid
    have headerWidth : front.header.length = Block.headerLength := by
      simp [Front.header, front.compressed_length, front.plain_length, Block.headerLength]
    rw [Front.bytes, List.append_assoc, List.append_assoc] at holds
    obtain ⟨rfl, others⟩ := List.append_inj holds (full.trans front.digest_length.symm)
    obtain ⟨rfl, rfl⟩ := List.append_inj others (width.trans headerWidth.symm)
    exact absurd sound (differs payload (declared_payload declared))
  · have present : digest ++ (header ++ behind) ≠ [] := by
      rw [ne_eq, List.append_eq_nil_iff, not_and]
      rintro rfl
      cases full
    obtain ⟨fault, rfl⟩ := clean_stop_is_fault stops present
    exact ⟨fault, stops⟩

/-! ## Streams -/

/-- Read with buffers of any sizes, a source of this content that ends cleanly hands out
these plain bytes, some of them each time, and behind the last of them the reader reports
this fault of a block. -/
def FailsBehind (limit : Nat) (content plain : Bytes) (fault : Block.Fault) : Prop :=
  ∀ source counts, source.content = content → source.ending = .clean →
    (∀ count ∈ counts, 0 < count) →
    ∃ outs : List Bytes, (readEach counts (BlockReader.ofSource source limit)).1 =
        outs.map .ok ++ reports (some (.block fault)) (counts.length - outs.length) ∧
      outs.length ≤ counts.length ∧ (∀ out ∈ outs, out ≠ []) ∧ outs.flatten <+: plain ∧
      (outs.length < counts.length → outs.flatten = plain) ∧
      (plain.length < counts.length → outs.length < counts.length)

private theorem chain_fails (chained : Chain limit chain plains)
    (stops : Stops limit .clean rest (some (.block fault))) :
    FailsBehind limit (chain ++ rest) plains.flatten fault :=
  chain_hands_out chained stops

/-- Whatever a writer was asked and whatever its sink did, what it added to the sink are
whole blocks, as long as no failed call tore one. Alter any one of them. If other bytes
stand for its digest, or other bytes of the same length and another digest for its payload,
a reader that admits the blocks hands out the plain bytes of those before it and then
reports that the digest does not match, whether or not the payload could be expanded. If
other bytes stand for header and payload, whatever lengths they declare, it hands out the
same bytes and then reports a fault, unless the header and the payload it declares, all of
it, have the digest of the original ones. -/
theorem corruption_is_reported (size : Nat) (calls : List Call) (sink : Sink) :
    let start := BlockWriter.ofSink sink size
    let outcome := run calls start
    (∃ log, Logged start outcome.2 (calls.flatMap Call.data) log ∧ torn log ≤ failed outcome.1) ∧
      ∀ log before plain behind limit, Logged start outcome.2 (calls.flatMap Call.data) log →
        torn log = 0 → written log = before ++ plain :: behind →
        (∀ piece ∈ written log, Admits limit piece) →
        let payload := Lz4.compress plain
        let header := Block.header payload.length plain.length
        let digest := Digest.checksum (header ++ payload)
        let rest := behind.flatMap wire
        let stream := fun block => before.flatMap wire ++ (block ++ rest)
        outcome.2.sink.taken = sink.taken ++ stream (digest ++ header ++ payload) ∧
        (∀ other, other.length = Block.digestLength → other ≠ digest →
          FailsBehind limit (stream (other ++ header ++ payload)) before.flatten .digestMismatch) ∧
        (∀ other, other.length = payload.length →
          Digest.of (header ++ other) ≠ Digest.of (header ++ payload) →
          FailsBehind limit (stream (digest ++ header ++ other)) before.flatten .digestMismatch) ∧
        ∀ otherHeader other, otherHeader.length = Block.headerLength →
          other.length = payload.length →
          (∀ declared, DeclaredPayload otherHeader declared (other ++ rest) →
            Digest.of (otherHeader ++ declared) ≠ Digest.of (header ++ payload)) →
          ∃ fault, FailsBehind limit (stream (digest ++ otherHeader ++ other)) before.flatten
            fault := by
  intro start outcome
  refine ⟨run_logs calls start, ?_⟩
  intro log before plain behind limit logged untorn parts admits payload header digest rest stream
  have sound := written_sound logged.sound
  rw [parts] at sound admits
  obtain ⟨soundBefore, soundRest⟩ := List.forall_mem_append.mp sound
  obtain ⟨admitsBefore, admitsRest⟩ := List.forall_mem_append.mp admits
  have fits : Fits plain := (soundRest plain List.mem_cons_self).1
  have admitted : Admits limit plain := admitsRest plain List.mem_cons_self
  have chained : Chain limit (before.flatMap wire) before :=
    wires_chain (fun piece member => (soundBefore piece member).1) admitsBefore
  have full : digest.length = Block.digestLength := checksum_length _
  refine ⟨?_, ?_, ?_, ?_⟩
  · have block : wire plain = digest ++ header ++ payload := (List.append_assoc ..).symm
    rw [logged.taken, whole_bytes untorn, parts, List.flatMap_append, List.flatMap_cons, block]
    rfl
  · intro other width differs
    exact chain_fails chained (mismatch_stops fits admitted width rfl differs.symm)
  · intro other width differs
    exact chain_fails chained
      (mismatch_stops fits admitted full width fun same => differs (checksum_injective same))
  · intro otherHeader other headerWidth width differs
    obtain ⟨fault, stops⟩ := altered_stops limit full headerWidth
      fun declared inside same => differs declared inside (checksum_injective same)
    exact ⟨fault, chain_fails chained stops⟩

/-- Of the blocks of two bytes and of one the second is altered: its digest, a byte of its
payload, or the length of the plain bytes in its header. -/
theorem second_block_fails :
    let plain : Bytes := [9]
    let payload := Lz4.compress plain
    let header := Block.header payload.length plain.length
    let digest := Digest.checksum (header ++ payload)
    let longer := Block.header payload.length 2
    (run [.write [7, 8, 9], .flush] (BlockWriter.ofSink Sink.empty 2)).2.sink.taken =
        wire [7, 8] ++ (digest ++ header ++ payload) ∧
      FailsBehind 100 (wire [7, 8] ++ (List.replicate 16 0 ++ header ++ payload)) [7, 8]
        .digestMismatch ∧
      FailsBehind 100 (wire [7, 8] ++ (digest ++ header ++ [16, 8])) [7, 8] .digestMismatch ∧
      ∃ fault, FailsBehind 100 (wire [7, 8] ++ (digest ++ longer ++ payload)) [7, 8] fault := by
  intro plain payload header digest longer
  obtain ⟨-, altered⟩ := corruption_is_reported 2 [.write [7, 8, 9], .flush] Sink.empty
  have sound : ∀ attempt ∈ [Attempt.whole [7, 8], .whole [9]], attempt.Sound := by
    simp only [List.mem_cons, List.not_mem_nil, or_false, forall_eq_or_imp, forall_eq]
    exact ⟨⟨⟨by decide, by decide⟩, by decide⟩, ⟨by decide, by decide⟩, by decide⟩
  have logged : Logged (BlockWriter.ofSink Sink.empty 2)
      (run [.write [7, 8, 9], .flush] (BlockWriter.ofSink Sink.empty 2)).2 [7, 8, 9]
      [.whole [7, 8], .whole [9]] :=
    ⟨by decide +kernel, by decide +kernel, by decide +kernel, by decide +kernel, sound⟩
  have admits : ∀ piece ∈ ([[7, 8], [9]] : List Bytes), Admits 100 piece := by
    simp only [List.mem_cons, List.not_mem_nil, or_false, forall_eq_or_imp, forall_eq]
    exact ⟨⟨by decide, by decide⟩, by decide, by decide⟩
  have differs : ∀ declared, DeclaredPayload longer declared (payload ++ []) →
      Digest.of (longer ++ declared) ≠ Digest.of (header ++ payload) := by
    rintro declared ⟨front, length⟩
    have width : Block.signed32 ((longer.drop 1).take 4) = payload.length + Block.headerLength := by
      decide +kernel
    rw [List.append_nil] at front
    rw [front.eq_of_length (by omega)]
    decide +kernel
  obtain ⟨taken, byDigest, byPayload, byHeader⟩ :=
    altered _ [[7, 8]] plain [] 100 logged (by decide) rfl admits
  have first := byDigest (List.replicate 16 0) (by decide) (by decide +kernel)
  have second := byPayload [16, 8] (by decide) (by decide +kernel)
  obtain ⟨fault, third⟩ := byHeader longer payload (by decide) rfl differs
  simp only [List.flatMap_nil, List.append_nil, List.flatMap_cons, List.flatten_cons,
    List.flatten_nil] at taken first second third
  exact ⟨taken.trans (List.nil_append _), first, second, fault, third⟩

end SqlWire.Corruption
