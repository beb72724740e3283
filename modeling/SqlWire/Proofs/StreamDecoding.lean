import SqlWire.Proofs.BlockFraming
import SqlWire.Proofs.StreamReading

/-! What a reader of blocks makes of any bytes. A valid block is described by its
fields, and where no valid block begins there is exactly one stop: the end of the
stream, or the first check that fails. Every content is therefore a chain of valid
blocks before one stop, and the readings hand out the plain bytes of the chain and
then report the stop, whatever the deliveries and the buffers. -/
namespace SqlWire.StreamDecoding
open Transport BlockFraming StreamReading

/-! ## Blocks by their fields -/

/-- The bytes in front of a payload, field by field. -/
structure Front where
  digest : Bytes
  mark : UInt8
  /-- The length of header and payload, as it is written. -/
  compressed : Bytes
  /-- The length of the plain bytes, as it is written. -/
  plain : Bytes
  digest_length : digest.length = Block.digestLength
  compressed_length : compressed.length = 4
  plain_length : plain.length = 4

/-- The part of the front that the digest covers. -/
def Front.header (front : Front) : Bytes := front.mark :: front.compressed ++ front.plain

def Front.bytes (front : Front) : Bytes := front.digest ++ front.header

/-- The header carries the mark and gives these lengths. -/
structure Declares (front : Front) (payload plain : Nat) : Prop where
  marked : front.mark = Block.mark
  payload : Block.signed32 front.compressed = payload + Block.headerLength
  plain : Block.signed32 front.plain = plain

/-- Both lengths of a block are admitted. -/
structure Within (limit payload plain : Nat) : Prop where
  payload : payload ≤ limit
  plain : plain ≤ limit

/-- A block of plain bytes that a reader with this limit accepts. -/
inductive Valid (limit : Nat) : (block plain : Bytes) → Prop where
  | block (declared : Declares front payload.length plain.length)
      (within : Within limit payload.length plain.length)
      (sound : Digest.checksum (front.header ++ payload) = front.digest)
      (expands : Lz4.expand plain.length payload = .ok plain) :
      Valid limit (front.bytes ++ payload) plain

/-- What a reader reports at the end of a source: nothing at the clean end. -/
def endOf : Ending → Option StreamFault
  | .clean => none
  | .fails fault => some (.io fault)

/-- What a reader reports that wants more bytes than are left. -/
def cutShort (short : Block.Fault) : Ending → StreamFault
  | .clean => .block short
  | .fails fault => .io fault

/-- Where no valid block begins: what the reader reports there, in the order of its
checks. -/
inductive Stops (limit : Nat) (ending : Ending) : Bytes → Option StreamFault → Prop where
  | ended : Stops limit ending [] (endOf ending)
  | shortDigest (begun : digest ≠ []) (short : digest.length < Block.digestLength) :
      Stops limit ending digest (some (cutShort (.shortDigest digest.length) ending))
  | shortHeader (full : digest.length = Block.digestLength)
      (short : header.length < Block.headerLength) :
      Stops limit ending (digest ++ header) (some (cutShort (.shortHeader header.length) ending))
  | badMark (front : Front) (unmarked : front.mark ≠ Block.mark) :
      Stops limit ending (front.bytes ++ rest) (some (.block (.badMark front.mark)))
  | lengthTooSmall (front : Front) (marked : front.mark = Block.mark)
      (small : Block.signed32 front.compressed < Block.headerLength) :
      Stops limit ending (front.bytes ++ rest)
        (some (.block (.lengthTooSmall (Block.signed32 front.compressed))))
  | negativeLength (front : Front) (marked : front.mark = Block.mark)
      (enough : Block.headerLength ≤ Block.signed32 front.compressed)
      (negative : Block.signed32 front.plain < 0) :
      Stops limit ending (front.bytes ++ rest)
        (some (.block (.negativeLength (Block.signed32 front.plain))))
  | overLimit (declared : Declares front payload plain) (exceeds : ¬ Within limit payload plain) :
      Stops limit ending (front.bytes ++ rest) (some (.block (.overLimit plain payload limit)))
  | shortPayload (declared : Declares front payload plain) (within : Within limit payload plain)
      (short : rest.length < payload) :
      Stops limit ending (front.bytes ++ rest)
        (some (cutShort (.shortPayload rest.length payload) ending))
  | digestMismatch (declared : Declares front payload.length plain)
      (within : Within limit payload.length plain)
      (differs : Digest.checksum (front.header ++ payload) ≠ front.digest) :
      Stops limit ending (front.bytes ++ payload ++ rest) (some (.block .digestMismatch))
  | undecodable (declared : Declares front payload.length plain)
      (within : Within limit payload.length plain)
      (sound : Digest.checksum (front.header ++ payload) = front.digest)
      (fails : Lz4.expand plain payload = .error fault) :
      Stops limit ending (front.bytes ++ payload ++ rest) (some (.block (.undecodable fault)))
  | wrongLength (declared : Declares front payload.length plain)
      (within : Within limit payload.length plain)
      (sound : Digest.checksum (front.header ++ payload) = front.digest)
      (expands : Lz4.expand plain payload = .ok bytes) (differs : bytes.length ≠ plain) :
      Stops limit ending (front.bytes ++ payload ++ rest)
        (some (.block (.wrongLength bytes.length plain)))

private theorem front_length (front : Front) :
    front.bytes.length = Block.digestLength + Block.headerLength := by
  simp [Front.bytes, Front.header, front.digest_length, front.compressed_length,
    front.plain_length, Block.headerLength]

/-- As many bytes as a front has are one. -/
theorem front_of_bytes (enough : Block.digestLength + Block.headerLength ≤ content.length) :
    ∃ front : Front, ∃ rest, content = front.bytes ++ rest := by
  simp only [Block.digestLength, Block.headerLength] at enough
  obtain ⟨mark, behind, header⟩ : ∃ mark behind, content.drop 16 = mark :: behind := by
    apply List.exists_cons_of_ne_nil
    rw [ne_eq, List.drop_eq_nil_iff]
    omega
  have width : behind.length + 1 = content.length - 16 := by
    rw [← List.length_drop, header, List.length_cons]
  refine ⟨⟨content.take 16, mark, behind.take 4, (behind.drop 4).take 4, ?_, ?_, ?_⟩,
    (behind.drop 4).drop 4, ?_⟩
  · simp [Block.digestLength]
    omega
  · simp
    omega
  · simp
    omega
  · simp only [Front.bytes, Front.header, List.append_assoc, List.cons_append,
      List.take_append_drop]
    rw [← header, List.take_append_drop]

/-- A header is read by its fields, one check after the other. -/
theorem header_checks (limit : Nat) (front : Front) :
    Block.readHeader limit front.header =
      if front.mark ≠ Block.mark then .error (.badMark front.mark)
      else if Block.signed32 front.compressed < Block.headerLength then
        .error (.lengthTooSmall (Block.signed32 front.compressed))
      else if Block.signed32 front.plain < 0 then
        .error (.negativeLength (Block.signed32 front.plain))
      else
        let payload := (Block.signed32 front.compressed).toNat - Block.headerLength
        let plain := (Block.signed32 front.plain).toNat
        if limit < payload ∨ limit < plain then .error (.overLimit plain payload limit)
        else .ok ⟨payload, plain⟩ := by
  have compressed : (front.header.drop 1).take 4 = front.compressed := by
    simp [Front.header, ← front.compressed_length]
  have plain : (front.header.drop 5).take 4 = front.plain := by
    have behind : front.header.drop 5 = front.plain := by
      simp [Front.header, ← front.compressed_length]
    rw [behind, List.take_of_length_le (Nat.le_of_eq front.plain_length)]
  have first : front.header.headD 0 = front.mark := rfl
  simp only [Block.readHeader, compressed, plain, first]

private theorem declared_reads (declared : Declares front payload plain) :
    Block.readHeader limit front.header =
      if limit < payload ∨ limit < plain then .error (.overLimit plain payload limit)
      else .ok ⟨payload, plain⟩ := by
  have length : ((payload : Int) + Block.headerLength).toNat - Block.headerLength = payload :=
    Nat.add_sub_cancel ..
  rw [header_checks, declared.payload, declared.plain, if_neg (not_not_intro declared.marked),
    if_neg (by omega), if_neg (by omega), length, Int.toNat_natCast]

/-- A valid block has a front. -/
theorem valid_length (valid : Valid limit block plain) : 0 < block.length := by
  obtain ⟨declared, within, sound, expands⟩ := valid
  rw [List.length_append, front_length]
  exact Nat.add_pos_left (by decide) _

/-- The block of plain bytes is valid where its lengths fit and are admitted. -/
theorem wire_valid (fits : Fits plain) (admits : Admits limit plain) :
    Valid limit (wire plain) plain := by
  let payload := Lz4.compress plain
  let front : Front := ⟨Digest.checksum (body plain), Block.mark,
    Block.littleEndian 4 (payload.length + Block.headerLength), Block.littleEndian 4 plain.length,
    checksum_length _, little_endian_length 4 _, little_endian_length 4 _⟩
  have declared : Declares front payload.length plain.length :=
    ⟨rfl, signed_reads fits.payload, signed_reads fits.plain⟩
  have valid : Valid limit (front.bytes ++ payload) plain :=
    .block declared ⟨admits.payload, admits.plain⟩ rfl (Lz4Compression.compress_expands plain)
  have same : wire plain = front.bytes ++ payload := (List.append_assoc ..).symm
  exact same ▸ valid

/-! ## Reading one block -/

/-- A reading of more bytes than are left takes them all and meets the end. -/
theorem read_short {source : Source} (short : source.content.length < count) :
    ∃ after : Source, source.read count =
        (match source.ending with
          | .clean => .ok source.content
          | .fails fault => .error fault, after) ∧
      after.content = [] ∧ after.ending = source.ending := by
  obtain ⟨after, result, left, ending⟩ := read_takes source count
  rw [reading.eq_def, if_neg (Nat.not_le.mpr short)] at result
  rw [List.drop_of_length_le (Nat.le_of_lt short)] at left
  exact ⟨after, result, left, ending⟩

/-- What a reader does behind the bytes of a front: it checks the header, takes the payload
and unpacks it. -/
def behindFront (limit : Nat) (front : Front) (source : Source) :
    Except StreamFault (Option Bytes) × Source :=
  match Block.readHeader limit front.header with
  | .error fault => (.error (.block fault), source)
  | .ok lengths =>
    match source.read lengths.payload with
    | (.error fault, source) => (.error (.io fault), source)
    | (.ok payload, source) =>
      if payload.length < lengths.payload then
        (.error (.block (.shortPayload payload.length lengths.payload)), source)
      else
        match Block.unpack front.digest front.header payload lengths.plain with
        | .error fault => (.error (.block fault), source)
        | .ok plain => (.ok (some plain), source)

private theorem front_reads {source : Source} (limit : Nat) (front : Front)
    (holds : source.content = front.bytes ++ rest) :
    ∃ after : Source, after.content = rest ∧ after.ending = source.ending ∧
      BlockReader.readBlock limit source = behindFront limit front after := by
  rw [Front.bytes, List.append_assoc] at holds
  obtain ⟨afterDigest, digest, left, ending⟩ := read_front holds
  obtain ⟨after, header, left, ending'⟩ := read_front left
  have width : front.header.length = Block.headerLength := by
    simp [Front.header, front.compressed_length, front.plain_length, Block.headerLength]
  have present : front.digest.isEmpty = false := by
    rw [List.isEmpty_eq_false_iff, ← List.length_pos_iff, front.digest_length]
    decide
  refine ⟨after, left, ending'.trans ending, ?_⟩
  rw [front.digest_length] at digest
  rw [width] at header
  simp only [BlockReader.readBlock, digest, present, front.digest_length, header, width,
    Nat.lt_irrefl, Bool.false_eq_true, ↓reduceIte]
  rfl

private theorem within_admits (within : Within limit payload plain) :
    ¬ (limit < payload ∨ limit < plain) := by
  rintro (exceeds | exceeds)
  · exact Nat.not_lt.mpr within.payload exceeds
  · exact Nat.not_lt.mpr within.plain exceeds

/-- A payload that is there as declared is taken as a whole and unpacked. -/
theorem payload_reads {source : Source} (holds : source.content = front.bytes ++ payload ++ rest)
    (declared : Declares front payload.length plain) (within : Within limit payload.length plain) :
    ∃ after : Source, after.content = rest ∧ after.ending = source.ending ∧
      BlockReader.readBlock limit source =
        match Block.unpack front.digest front.header payload plain with
        | .error fault => (.error (.block fault), after)
        | .ok plain => (.ok (some plain), after) := by
  rw [List.append_assoc] at holds
  obtain ⟨middle, left, ending, result⟩ := front_reads limit front holds
  obtain ⟨after, taken, left, ending'⟩ := read_front left
  refine ⟨after, left, ending'.trans ending, ?_⟩
  rw [result, behindFront, declared_reads declared, if_neg (within_admits within)]
  simp only [taken, Nat.lt_irrefl, ↓reduceIte]

/-- A valid block is read as its plain bytes, and no byte behind it is. -/
theorem valid_reads (valid : Valid limit block plain) {source : Source}
    (holds : source.content = block ++ behind) :
    ∃ after : Source, BlockReader.readBlock limit source = (.ok (some plain), after) ∧
      after.content = behind ∧ after.ending = source.ending := by
  obtain ⟨declared, within, sound, expands⟩ := valid
  obtain ⟨after, left, ending, result⟩ := payload_reads holds declared within
  exact ⟨after, by simp [result, Block.unpack, sound, expands], left, ending⟩

/-- What a stop is reported as, where a block is wanted. -/
def missing : Option StreamFault → Except StreamFault (Option Bytes)
  | none => .ok none
  | some fault => .error fault

/-- Where the blocks stop, the reader reports this stop. -/
theorem stops_reads {source : Source} (stops : Stops limit source.ending source.content stop) :
    ∃ after : Source, BlockReader.readBlock limit source = (missing stop, after) ∧
      (stop = none → after.content = [] ∧ after.ending = .clean) := by
  generalize held : source.content = content at stops
  generalize ended : source.ending = ending at stops
  cases stops with
  | ended =>
    have short : source.content.length < Block.digestLength := by rw [held]; decide
    obtain ⟨after, result, left, ending'⟩ := read_short short
    rw [held, ended] at result
    cases ending with
    | clean => exact ⟨after, by simp [BlockReader.readBlock, result, missing, endOf], fun _ =>
        ⟨left, ending'.trans ended⟩⟩
    | fails fault =>
      exact ⟨after, by simp [BlockReader.readBlock, result, missing, endOf], by simp [endOf]⟩
  | shortDigest begun short =>
    rw [← held] at short
    obtain ⟨after, result, left, ending'⟩ := read_short short
    rw [held, ended] at result
    rw [held] at short
    refine ⟨after, ?_, by simp⟩
    cases ending with
    | clean => simp [BlockReader.readBlock, result, missing, cutShort, begun, short]
    | fails fault => simp [BlockReader.readBlock, result, missing, cutShort]
  | @shortHeader digest header full short =>
    obtain ⟨middle, taken, left, ending'⟩ := read_front held
    have present : digest ≠ [] := by
      rintro rfl
      cases full
    rw [← left] at short
    obtain ⟨after, result, -, -⟩ := read_short short
    rw [left, ending', ended] at result
    rw [left] at short
    rw [full] at taken
    refine ⟨after, ?_, by simp⟩
    cases ending with
    | clean =>
      simp [BlockReader.readBlock, taken, result, missing, cutShort, present, full, short]
    | fails fault => simp [BlockReader.readBlock, taken, result, missing, cutShort, present, full]
  | badMark front unmarked =>
    obtain ⟨after, -, -, result⟩ := front_reads limit front held
    rw [behindFront, header_checks, if_pos unmarked] at result
    exact ⟨after, result, by simp⟩
  | lengthTooSmall front marked small =>
    obtain ⟨after, -, -, result⟩ := front_reads limit front held
    rw [behindFront, header_checks, if_neg (not_not_intro marked), if_pos small] at result
    exact ⟨after, result, by simp⟩
  | negativeLength front marked enough negative =>
    obtain ⟨after, -, -, result⟩ := front_reads limit front held
    rw [behindFront, header_checks, if_neg (not_not_intro marked), if_neg (Int.not_lt.mpr enough),
      if_pos negative] at result
    exact ⟨after, result, by simp⟩
  | @overLimit front payload plain rest declared exceeds =>
    obtain ⟨after, -, -, result⟩ := front_reads limit front held
    have beyond : limit < payload ∨ limit < plain := by
      by_contra within
      exact exceeds ⟨by omega, by omega⟩
    rw [behindFront, declared_reads declared, if_pos beyond] at result
    exact ⟨after, result, by simp⟩
  | @shortPayload front payload plain rest declared within short =>
    obtain ⟨middle, left, ending', result⟩ := front_reads limit front held
    rw [← left] at short
    obtain ⟨after, taken, -, -⟩ := read_short short
    rw [left, ending', ended] at taken
    rw [left] at short
    rw [behindFront, declared_reads declared, if_neg (within_admits within)] at result
    refine ⟨after, ?_, by simp⟩
    cases ending with
    | clean => simp [result, taken, missing, cutShort, short]
    | fails fault => simp [result, taken, missing, cutShort]
  | @digestMismatch front payload plain rest declared within differs =>
    obtain ⟨after, -, -, result⟩ := payload_reads held declared within
    exact ⟨after, by simp [result, Block.unpack, differs, missing], by simp⟩
  | @undecodable front payload plain fault rest declared within sound fails =>
    obtain ⟨after, -, -, result⟩ := payload_reads held declared within
    exact ⟨after, by simp [result, Block.unpack, sound, fails, missing], by simp⟩
  | @wrongLength front payload plain bytes rest declared within sound expands differs =>
    obtain ⟨after, -, -, result⟩ := payload_reads held declared within
    exact ⟨after, by simp [result, Block.unpack, sound, expands, differs, missing], by simp⟩

/-! ## Taking a content apart -/

/-- A valid block stands in front of any content, or a stop does. -/
theorem valid_or_stops (limit : Nat) (ending : Ending) (content : Bytes) :
    (∃ block plain behind, content = block ++ behind ∧ Valid limit block plain) ∨
      ∃ stop, Stops limit ending content stop := by
  by_cases nothing : content = []
  · subst nothing
    exact .inr ⟨_, .ended⟩
  by_cases short : content.length < Block.digestLength
  · exact .inr ⟨_, .shortDigest nothing short⟩
  by_cases enough : Block.digestLength + Block.headerLength ≤ content.length
  · obtain ⟨front, rest, rfl⟩ := front_of_bytes enough
    by_cases marked : front.mark = Block.mark
    swap
    · exact .inr ⟨_, .badMark front marked⟩
    by_cases small : Block.signed32 front.compressed < Block.headerLength
    · exact .inr ⟨_, .lengthTooSmall front marked small⟩
    by_cases negative : Block.signed32 front.plain < 0
    · exact .inr ⟨_, .negativeLength front marked (Int.not_lt.mp small) negative⟩
    have enough := Int.sub_nonneg.mpr (Int.not_lt.mp small)
    obtain ⟨payload, compressed⟩ := Int.eq_ofNat_of_zero_le enough
    obtain ⟨plain, length⟩ := Int.eq_ofNat_of_zero_le (Int.not_lt.mp negative)
    have declared : Declares front payload plain := ⟨marked, by omega, length⟩
    by_cases within : Within limit payload plain
    swap
    · exact .inr ⟨_, .overLimit declared within⟩
    by_cases cut : rest.length < payload
    · exact .inr ⟨_, .shortPayload declared within cut⟩
    obtain ⟨body, behind, rfl, rfl⟩ :
        ∃ body behind, rest = body ++ behind ∧ body.length = payload :=
      ⟨rest.take payload, rest.drop payload, (List.take_append_drop ..).symm,
        List.length_take_of_le (Nat.not_lt.mp cut)⟩
    rw [← List.append_assoc]
    by_cases sound : Digest.checksum (front.header ++ body) = front.digest
    swap
    · exact .inr ⟨_, .digestMismatch declared within sound⟩
    cases expands : Lz4.expand plain body with
    | error fault => exact .inr ⟨_, .undecodable declared within sound expands⟩
    | ok bytes =>
      by_cases differs : bytes.length ≠ plain
      · exact .inr ⟨_, .wrongLength declared within sound expands differs⟩
      · obtain rfl := not_not.mp differs
        exact .inl ⟨_, bytes, behind, rfl, .block declared within sound expands⟩
  · have parts : content = content.take Block.digestLength ++ content.drop Block.digestLength :=
      (List.take_append_drop ..).symm
    rw [parts]
    refine .inr ⟨_, .shortHeader (List.length_take_of_le (Nat.not_lt.mp short)) ?_⟩
    rw [List.length_drop]
    omega

private theorem some_source (content : Bytes) (ending : Ending) :
    ∃ source : Source, source.content = content ∧ source.ending = ending :=
  ⟨⟨[.bytes content], ending⟩, List.append_nil _, rfl⟩

private theorem missing_injective (same : missing stop = missing other) : stop = other := by
  cases stop <;> cases other <;> simp_all [missing]

/-- There is one stop at most. -/
theorem stop_unique (stops : Stops limit ending content stop)
    (others : Stops limit ending content other) : other = stop := by
  obtain ⟨source, rfl, rfl⟩ := some_source content ending
  obtain ⟨after, result, -⟩ := stops_reads stops
  obtain ⟨after', result', -⟩ := stops_reads others
  exact missing_injective (congrArg Prod.fst (result'.symm.trans result))

/-- No valid block begins where the blocks stop. -/
theorem stop_not_valid (stops : Stops limit ending (block ++ behind) stop) :
    ¬ Valid limit block plain := by
  intro valid
  obtain ⟨source, holds, rfl⟩ := some_source (block ++ behind) ending
  rw [← holds] at stops
  obtain ⟨after, result, -⟩ := stops_reads stops
  obtain ⟨after', result', -⟩ := valid_reads valid holds
  have same := congrArg Prod.fst (result.symm.trans result')
  cases stop <;> cases same

/-- The bytes of a content decide where its first valid block ends, and the plain bytes
of it. -/
theorem valid_unique (valid : Valid limit block plain) (others : Valid limit other otherPlain)
    (same : block ++ behind = other ++ rest) : block = other ∧ plain = otherPlain := by
  obtain ⟨source, holds, -⟩ := some_source (block ++ behind) .clean
  obtain ⟨after, result, left, -⟩ := valid_reads valid holds
  obtain ⟨after', result', left', -⟩ := valid_reads others (holds.trans same)
  rw [result, Prod.mk.injEq] at result'
  obtain ⟨plains, rfl⟩ := result'
  rw [left'] at left
  rw [left] at same
  exact ⟨List.append_cancel_right same, by simpa using plains⟩

/-- Valid blocks one behind the other, and their plain bytes. -/
inductive Chain (limit : Nat) : Bytes → List Bytes → Prop where
  | nil : Chain limit [] []
  | cons (valid : Valid limit block plain) (behind : Chain limit blocks plains) :
      Chain limit (block ++ blocks) (plain :: plains)

/-- The blocks of plain bytes are a chain. -/
theorem wires_chain {plains : List Bytes} (fits : ∀ plain ∈ plains, Fits plain)
    (admits : ∀ plain ∈ plains, Admits limit plain) :
    Chain limit (plains.flatMap wire) plains := by
  induction plains with
  | nil => exact .nil
  | cons plain plains ih =>
    obtain ⟨fitsHere, fitsOthers⟩ := List.forall_mem_cons.mp fits
    obtain ⟨admitsHere, admitsOthers⟩ := List.forall_mem_cons.mp admits
    rw [List.flatMap_cons]
    exact .cons (wire_valid fitsHere admitsHere) (ih fitsOthers admitsOthers)

/-- Every content is a chain of valid blocks in front of a stop. -/
theorem chain_stops (limit : Nat) (ending : Ending) (content : Bytes) :
    ∃ chain plains rest stop, content = chain ++ rest ∧ Chain limit chain plains ∧
      Stops limit ending rest stop := by
  induction width : content.length using Nat.strongRecOn generalizing content with
  | ind size ih =>
    rcases valid_or_stops limit ending content with
      ⟨block, plain, behind, rfl, valid⟩ | ⟨stop, stops⟩
    · have shorter : behind.length < size := by
        have := valid_length valid
        rw [← width, List.length_append]
        omega
      obtain ⟨chain, plains, rest, stop, rfl, blocks, stops⟩ := ih _ shorter behind rfl
      exact ⟨block ++ chain, plain :: plains, rest, stop, (List.append_assoc ..).symm,
        .cons valid blocks, stops⟩
    · exact ⟨[], [], content, stop, rfl, .nil, stops⟩

/-- The chain in front of a stop is the longest. -/
theorem chain_longest (blocks : Chain limit chain plains) (stops : Stops limit ending rest stop)
    (others : Chain limit other otherPlains) (part : other <+: chain ++ rest) :
    other <+: chain := by
  induction blocks generalizing other otherPlains with
  | nil =>
    cases others with
    | nil => exact List.nil_prefix
    | @cons block plain blocks plains valid behind =>
      obtain ⟨beyond, same⟩ := part
      rw [List.append_assoc, List.nil_append] at same
      exact absurd valid (stop_not_valid (same ▸ stops))
  | @cons block plain chain plains valid behind ih =>
    cases others with
    | nil => exact List.nil_prefix
    | @cons front _ others _ first more =>
      obtain ⟨beyond, same⟩ := part
      rw [List.append_assoc, List.append_assoc] at same
      obtain ⟨rfl, -⟩ := valid_unique first valid same
      rw [List.prefix_append_right_inj]
      exact ih more ⟨beyond, by simpa using same⟩

/-! ## Readings -/

/-- A reader that has not failed, before a chain of valid blocks of these plain bytes
and the stop behind them. -/
structure Reads (reader : BlockReader) (plains : List Bytes) (stop : Option StreamFault) :
    Prop where
  sound : reader.failure = none
  source : ∃ source chain rest, reader.source = some source ∧ source.content = chain ++ rest ∧
    Chain reader.limit chain plains ∧ Stops reader.limit source.ending rest stop

private theorem chain_length (blocks : Chain limit chain plains) :
    plains.length ≤ chain.length := by
  induction blocks with
  | nil => exact Nat.le_refl _
  | cons valid behind ih =>
    have := valid_length valid
    rw [List.length_cons, List.length_append]
    omega

/-- What a reading yields at a stop. -/
def stopped : Option StreamFault → Except StreamFault Bytes
  | none => .ok []
  | some fault => .error fault

/-- A reader that has come to its stop. -/
def AtStop (reader : BlockReader) : Option StreamFault → Prop
  | none => Reads reader [] none ∧ reader.pending = []
  | some fault => reader.failure = some fault

/-- Bytes at hand are taken in one step. -/
theorem pending_step (reads : Reads reader plains stop) (some : reader.pending ≠ []) :
    ∃ after, BlockReader.pullStep reader = .inr (.ok reader.pending, after) ∧ after.pending = [] ∧
      Reads after plains stop := by
  refine ⟨{ reader with pending := [] }, ?_, rfl, reads.sound, reads.source⟩
  simp [BlockReader.pullStep, some]

/-- With no bytes at hand a step reads the next block. -/
theorem block_step (reads : Reads reader (plain :: plains) stop) (nothing : reader.pending = []) :
    ∃ after, BlockReader.pullStep reader = .inl after ∧ after.pending = plain ∧
      Reads after plains stop := by
  obtain ⟨source, chain, rest, opened, holds, chained, stops⟩ := reads.source
  obtain ⟨⟩ | @⟨block, _, blocks, _, valid, behind⟩ := chained
  rw [List.append_assoc] at holds
  obtain ⟨next, result, left, ending⟩ := valid_reads valid holds
  refine ⟨{ reader with
    source := some next, pending := plain, blocksRead := reader.blocksRead + 1 }, ?_, rfl,
    reads.sound, next, blocks, rest, rfl, left, behind, ending ▸ stops⟩
  simp [BlockReader.pullStep, nothing, opened, result]

/-- With no bytes at hand and no block left a step meets the stop. -/
theorem stop_step (reads : Reads reader [] stop) (nothing : reader.pending = []) :
    ∃ after, BlockReader.pullStep reader = .inr (stopped stop, after) ∧ AtStop after stop := by
  obtain ⟨source, _, rest, opened, holds, ⟨⟩, stops⟩ := reads.source
  rw [List.nil_append] at holds
  rw [← holds] at stops
  obtain ⟨next, result, ended⟩ := stops_reads stops
  cases stop with
  | some fault =>
    refine ⟨reader.fail fault, ?_, rfl⟩
    simp [BlockReader.pullStep, nothing, opened, result, missing, stopped]
  | none =>
    obtain ⟨done, clean⟩ := ended rfl
    refine ⟨{ reader with source := some next }, ?_,
      ⟨reads.sound, next, [], [], rfl, done, .nil, ?_⟩, nothing⟩
    · simp [BlockReader.pullStep, nothing, opened, result, missing, stopped]
    · rw [clean]
      exact .ended

/-- How many pulls at most find bytes: one those at hand, and one those of each block. -/
def ahead (reader : BlockReader) (plains : List Bytes) : Nat :=
  if reader.pending = [] then plains.length else plains.length + 1

/-- Steps of a reader lead to the next bytes, over blocks without any, or to the stop. -/
theorem steps_decode (reads : Reads reader plains stop) (enough : plains.length < count) :
    (∃ plain after others,
        repeatFor BlockReader.pullStep (count + 1) reader = .inr (.ok plain, after) ∧
        plain ≠ [] ∧ after.pending = [] ∧ Reads after others stop ∧
        left reader plains = plain ++ others.flatten ∧ others.length < ahead reader plains) ∨
      left reader plains = [] ∧
        ∃ after, repeatFor BlockReader.pullStep (count + 1) reader = .inr (stopped stop, after) ∧
          AtStop after stop := by
  induction plains generalizing reader count with
  | nil =>
    by_cases nothing : reader.pending = []
    · obtain ⟨after, step, ended⟩ := stop_step reads nothing
      exact .inr ⟨by simp [left, nothing], after, by rw [repeatFor, step], ended⟩
    · obtain ⟨after, step, empty, stays⟩ := pending_step reads nothing
      exact .inl ⟨_, after, [], by rw [repeatFor, step], nothing, empty, stays, rfl,
        by simp [ahead, nothing]⟩
  | cons plain plains ih =>
    by_cases nothing : reader.pending = []
    · obtain ⟨after, step, pending, stays⟩ := block_step reads nothing
      obtain ⟨fewer, rfl⟩ := Nat.exists_eq_add_one_of_ne_zero (Nat.ne_zero_of_lt enough)
      have same : left reader (plain :: plains) = left after plains := by
        simp [left, nothing, pending]
      have most : ahead after plains ≤ ahead reader (plain :: plains) := by
        simp only [ahead, nothing, List.length_cons, ↓reduceIte]
        split <;> omega
      rw [repeatFor, step, same]
      rcases ih stays (Nat.lt_of_succ_lt_succ enough) with
        ⟨bytes, last, others, found, some, empty, staysOn, parts, less⟩ | ended
      · exact .inl ⟨bytes, last, others, found, some, empty, staysOn, parts,
          Nat.lt_of_lt_of_le less most⟩
      · exact .inr ended
    · obtain ⟨after, step, empty, stays⟩ := pending_step reads nothing
      exact .inl ⟨_, after, plain :: plains, by rw [repeatFor, step], nothing, empty, stays, rfl,
        by simp [ahead, nothing]⟩

/-- The source has a byte or more for every block. -/
theorem reads_length (reads : Reads reader plains stop) :
    plains.length ≤ (bytesOf reader.deliveries).length := by
  obtain ⟨source, chain, rest, opened, holds, blocks, -⟩ := reads.source
  have bytes : bytesOf reader.deliveries = chain ++ rest := by
    rw [← holds, BlockReader.deliveries, opened]
    rfl
  rw [bytes, List.length_append]
  exact Nat.le_add_right_of_le (chain_length blocks)

/-- A pull takes the next bytes there are, or meets the stop. -/
theorem pull_decodes (reads : Reads reader plains stop) :
    (∃ plain after others, reader.pull = (.ok plain, after) ∧ plain ≠ [] ∧ after.pending = [] ∧
        Reads after others stop ∧ left reader plains = plain ++ others.flatten ∧
        others.length < ahead reader plains) ∨
      left reader plains = [] ∧
        ∃ after, reader.pull = (stopped stop, after) ∧ AtStop after stop := by
  have enough := Nat.lt_succ_of_le (reads_length reads)
  have steps : ∀ result, repeatFor BlockReader.pullStep
      ((bytesOf reader.deliveries).length + 1 + 1) reader = .inr result → reader.pull = result := by
    intro result found
    rw [BlockReader.pull, reads.sound, repeat_over_counts, found]
  rcases steps_decode reads enough with
    ⟨plain, after, others, found, some, empty, stays, parts, less⟩ | ⟨nothing, after, found, ended⟩
  · exact .inl ⟨plain, after, others, steps _ found, some, empty, stays, parts, less⟩
  · exact .inr ⟨nothing, after, steps _ found, ended⟩

/-- A reading hands out the next bytes there are, or meets the stop. -/
theorem read_decodes (reads : Reads reader plains stop) (positive : 0 < count) :
    (∃ out after others, reader.read count = (.ok out, after) ∧ out ≠ [] ∧ out.length ≤ count ∧
        Reads after others stop ∧ left reader plains = out ++ left after others) ∨
      left reader plains = [] ∧
        ∃ after, reader.read count = (stopped stop, after) ∧ AtStop after stop := by
  rcases pull_decodes reads with
    ⟨plain, after, others, pulled, some, empty, stays, parts, -⟩ | ⟨nothing, after, pulled, ended⟩
  · refine .inl ⟨plain.take count, { after with pending := plain.drop count }, others, ?_, ?_,
      List.length_take_le .., ⟨stays.sound, stays.source⟩, ?_⟩
    · rw [BlockReader.read, reads.sound]
      simp only [Nat.ne_of_gt positive, ↓reduceIte, pulled]
    · rw [ne_eq, List.take_eq_nil_iff, not_or]
      exact ⟨Nat.ne_of_gt positive, some⟩
    · rw [parts, left, ← List.append_assoc, List.take_append_drop]
  · refine .inr ⟨nothing, ?_⟩
    cases stop with
    | some fault =>
      refine ⟨after, ?_, ended⟩
      rw [BlockReader.read, reads.sound]
      simp only [Nat.ne_of_gt positive, ↓reduceIte, pulled, stopped]
    | none =>
      refine ⟨{ after with pending := [] }, ?_, ⟨ended.1.sound, ended.1.source⟩, rfl⟩
      rw [BlockReader.read, reads.sound]
      simp [Nat.ne_of_gt positive, pulled, stopped]

/-- What a reading yields once the stop has been reported. -/
def stoppedBefore : Option StreamFault → Except StreamFault Bytes
  | none => .ok []
  | some fault => .error (BlockReader.reportAgain fault)

private theorem read_at_stop (ended : AtStop reader stop) (positive : 0 < count) :
    ∃ after, reader.read count = (stoppedBefore stop, after) ∧ AtStop after stop := by
  cases stop with
  | some fault =>
    have failed : reader.failure = some fault := ended
    exact ⟨reader, by rw [BlockReader.read, failed]; rfl, ended⟩
  | none =>
    rcases read_decodes ended.1 positive with
      ⟨out, after, others, result, some, most, stays, parts⟩ | ⟨-, found⟩
    · rw [left, ended.2, List.flatten_nil, List.nil_append] at parts
      exact absurd (List.append_eq_nil_iff.mp parts.symm).1 some
    · exact found

private theorem read_each_at_stop (ended : AtStop reader stop)
    (positive : ∀ count ∈ counts, 0 < count) :
    (readEach counts reader).1 = List.replicate counts.length (stoppedBefore stop) := by
  induction counts generalizing reader with
  | nil => rfl
  | cons count counts ih =>
    obtain ⟨here, others⟩ := List.forall_mem_cons.mp positive
    obtain ⟨after, result, stays⟩ := read_at_stop ended here
    simp only [readEach, result, ih stays others]
    rfl

/-- What the readings behind the last byte yield: the stop, and the stop again. -/
def reports (stop : Option StreamFault) : Nat → List (Except StreamFault Bytes)
  | 0 => []
  | count + 1 => stopped stop :: List.replicate count (stoppedBefore stop)

private theorem length_of_solid {outs : List Bytes} (solid : ∀ out ∈ outs, out ≠ []) :
    outs.length ≤ outs.flatten.length := by
  induction outs with
  | nil => exact Nat.le_refl _
  | cons out outs ih =>
    obtain ⟨here, others⟩ := List.forall_mem_cons.mp solid
    have := ih others
    have := List.length_pos_iff.mpr here
    rw [List.length_cons, List.flatten_cons, List.length_append]
    omega

/-- One reading after the other hands out what is left, some bytes each, and then
reports the stop. -/
theorem read_each_decodes (reads : Reads reader plains stop)
    (positive : ∀ count ∈ counts, 0 < count) :
    ∃ outs : List Bytes, (readEach counts reader).1 =
        outs.map .ok ++ reports stop (counts.length - outs.length) ∧
      outs.length ≤ counts.length ∧ (∀ out ∈ outs, out ≠ []) ∧
      (∀ asked ∈ outs.zip counts, asked.1.length ≤ asked.2) ∧
      outs.flatten <+: left reader plains ∧
      (outs.length < counts.length → outs.flatten = left reader plains) := by
  induction counts generalizing reader plains with
  | nil => exact ⟨[], rfl, Nat.le_refl _, by simp, by simp, List.nil_prefix, by simp⟩
  | cons count counts ih =>
    obtain ⟨here, others⟩ := List.forall_mem_cons.mp positive
    rcases read_decodes reads here with
      ⟨out, after, plains', result, some, most, stays, parts⟩ | ⟨nothing, after, result, ended⟩
    · obtain ⟨outs, results, fewer, solid, mostOn, front, whole⟩ := ih stays others
      refine ⟨out :: outs, ?_, Nat.succ_le_succ fewer, List.forall_mem_cons.mpr ⟨some, solid⟩,
        List.forall_mem_cons.mpr ⟨most, mostOn⟩, ?_, ?_⟩
      · simp only [readEach, result, results, List.map_cons, List.cons_append, List.length_cons,
          Nat.add_sub_add_right]
      · rw [parts, List.flatten_cons, List.prefix_append_right_inj]
        exact front
      · intro more
        rw [parts, List.flatten_cons, whole (Nat.lt_of_succ_lt_succ more)]
    · refine ⟨[], ?_, Nat.zero_le _, by simp, by simp, List.nil_prefix, fun _ => nothing.symm⟩
      simp only [readEach, result, read_each_at_stop ended others]
      rfl

/-- Read with buffers of any sizes, a source of this content that ends cleanly hands out
these plain bytes, some of them each time, and behind the last of them the reader reports
this stop. -/
def HandsOut (limit : Nat) (content plain : Bytes) (stop : Option StreamFault) : Prop :=
  ∀ source counts, source.content = content → source.ending = .clean →
    (∀ count ∈ counts, 0 < count) →
    ∃ outs : List Bytes, (readEach counts (BlockReader.ofSource source limit)).1 =
        outs.map .ok ++ reports stop (counts.length - outs.length) ∧
      outs.length ≤ counts.length ∧ (∀ out ∈ outs, out ≠ []) ∧ outs.flatten <+: plain ∧
      (outs.length < counts.length → outs.flatten = plain) ∧
      (plain.length < counts.length → outs.length < counts.length)

theorem chain_hands_out (chained : Chain limit chain plains) (stops : Stops limit .clean rest stop) :
    HandsOut limit (chain ++ rest) plains.flatten stop := by
  intro source counts holds clean positive
  have reads : Reads (BlockReader.ofSource source limit) plains stop :=
    ⟨rfl, source, chain, rest, rfl, holds, chained, clean ▸ stops⟩
  obtain ⟨outs, results, fewer, solid, -, front, whole⟩ := read_each_decodes reads positive
  refine ⟨outs, results, fewer, solid, front, whole, fun more => ?_⟩
  exact Nat.lt_of_le_of_lt (Nat.le_trans (length_of_solid solid) front.length_le) more

/-- Every content is the longest chain of valid blocks before exactly one stop. Readings
with buffers of any sizes hand out the plain bytes of the chain, some of them each time,
and behind the last of them report the stop: a reading yields no bytes only at the clean
end of the stream. -/
theorem any_content_decodes (limit : Nat) (source : Source) :
    ∃ chain plains rest stop, source.content = chain ++ rest ∧ Chain limit chain plains ∧
      (∀ other others, other <+: source.content → Chain limit other others → other <+: chain) ∧
      (∀ other, Stops limit source.ending rest other ↔ other = stop) ∧
      ∀ counts, (∀ count ∈ counts, 0 < count) →
        ∃ outs : List Bytes, (readEach counts (BlockReader.ofSource source limit)).1 =
            outs.map .ok ++ reports stop (counts.length - outs.length) ∧
          outs.length ≤ counts.length ∧ (∀ out ∈ outs, out ≠ []) ∧
          (∀ asked ∈ outs.zip counts, asked.1.length ≤ asked.2) ∧
          outs.flatten <+: plains.flatten ∧
          (outs.length < counts.length → outs.flatten = plains.flatten) ∧
          (plains.flatten.length < counts.length → outs.length < counts.length) := by
  obtain ⟨chain, plains, rest, stop, parts, blocks, stops⟩ :=
    chain_stops limit source.ending source.content
  refine ⟨chain, plains, rest, stop, parts, blocks, ?_, ?_, ?_⟩
  · intro other others part chained
    exact chain_longest blocks stops chained (parts ▸ part)
  · intro other
    constructor
    · exact stop_unique stops
    · rintro rfl
      exact stops
  · intro counts positive
    have reads : Reads (BlockReader.ofSource source limit) plains stop :=
      ⟨rfl, source, chain, rest, rfl, parts, blocks, stops⟩
    obtain ⟨outs, results, fewer, solid, most, front, whole⟩ := read_each_decodes reads positive
    refine ⟨outs, results, fewer, solid, most, front, whole, fun more => ?_⟩
    have bytes : outs.length ≤ outs.flatten.length := length_of_solid solid
    exact Nat.lt_of_le_of_lt (Nat.le_trans bytes front.length_le) more

/-- A block of two bytes behind an empty one, read from a source that is interrupted
between them and ends inside a third digest. -/
theorem cut_stream_decodes :
    let source : Source :=
      ⟨[.bytes (wire []), .interrupted, .bytes (wire [7, 8] ++ [1, 2, 3])], .clean⟩
    let results := (readEach [1, 5, 5, 5] (BlockReader.ofSource source 100)).1
    results = [.ok [7], .ok [8], .error (.block (.shortDigest 3)),
        .error (.block (.failedBefore (.shortDigest 3)))] ∧
      ∃ chain plains rest stop, source.content = chain ++ rest ∧ Chain 100 chain plains ∧
        Stops 100 .clean rest stop ∧ ∃ outs : List Bytes,
          results = outs.map .ok ++ reports stop (4 - outs.length) ∧
          outs.flatten <+: plains.flatten := by
  intro source results
  obtain ⟨chain, plains, rest, stop, parts, blocks, -, stops, readings⟩ :=
    any_content_decodes 100 source
  obtain ⟨outs, yields, -, -, -, front, -⟩ := readings [1, 5, 5, 5] (by decide)
  exact ⟨by decide +kernel, chain, plains, rest, stop, parts, blocks, (stops stop).mpr rfl, outs,
    yields, front⟩

end SqlWire.StreamDecoding
