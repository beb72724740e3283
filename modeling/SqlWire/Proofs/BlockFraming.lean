import Mathlib.Algebra.Order.Ring.Int
import SqlWire.Wire.BlockReader
import SqlWire.Proofs.Lz4Compression
import SqlWire.Proofs.Transport

/-! A block as bytes on the wire. Its digest and its header have fixed lengths, and
the header gives the length of the payload, so a reader that has the bytes of a block
before it takes these and no others, and finds the plain bytes in them. -/
namespace SqlWire.BlockFraming
open Block Transport

/-! ## Numbers and digests -/

theorem little_endian_length (width number : Nat) : (littleEndian width number).length = width := by
  induction width generalizing number with
  | zero => rfl
  | succ width ih => rw [littleEndian, List.length_cons, ih]

theorem little_endian_reads (fits : number < 256 ^ width) :
    ofLittleEndian (littleEndian width number) = number := by
  induction width generalizing number with
  | zero =>
    rw [Nat.pow_zero] at fits
    exact (Nat.lt_one_iff.mp fits).symm
  | succ width ih =>
    have high : number / 256 < 256 ^ width := by
      rw [Nat.pow_succ] at fits
      exact Nat.div_lt_of_lt_mul (Nat.mul_comm _ _ ▸ fits)
    have low : (UInt8.ofNat (number % 256)).toNat = number % 256 :=
      UInt8.toNat_ofNat_of_lt' (Nat.mod_lt _ (by decide))
    rw [littleEndian, ofLittleEndian, low, ih high, Nat.mod_add_div]

/-- A length that fits a header is not read as a negative number. -/
theorem signed_reads (fits : length ≤ maxLength) : signed32 (littleEndian 4 length) = length := by
  have bound : length < 256 ^ 4 := Nat.lt_of_le_of_lt fits (by decide)
  rw [signed32, little_endian_reads bound]
  exact if_pos fits

theorem checksum_length (bytes : Bytes) : (Digest.checksum bytes).length = digestLength := by
  simp [Digest.checksum, Digest.Pair.toBytes, Digest.wordBytes, digestLength]

/-! ## Blocks -/

/-- Header and payload of the block of plain bytes. -/
def body (plain : Bytes) : Bytes :=
  header (Lz4.compress plain).length plain.length ++ Lz4.compress plain

/-- The block of plain bytes, were there no bound on its lengths. -/
def wire (plain : Bytes) : Bytes := Digest.checksum (body plain) ++ body plain

/-- The lengths of a block fit its header. -/
structure Fits (plain : Bytes) : Prop where
  payload : (Lz4.compress plain).length + headerLength ≤ maxLength
  plain : plain.length ≤ maxLength

/-- A reader with this limit admits the block of plain bytes. -/
structure Admits (limit : Nat) (plain : Bytes) : Prop where
  payload : (Lz4.compress plain).length ≤ limit
  plain : plain.length ≤ limit

theorem encode_fits (fits : Fits plain) : encode plain = .ok (wire plain) := by
  have payload := fits.payload
  have length := fits.plain
  rw [encode, if_neg (by omega)]
  rfl

private theorem header_length (payload plain : Nat) :
    (header payload plain).length = headerLength := by
  simp [header, little_endian_length, headerLength]

private theorem header_reads (payload : Nat) (fits : payload + headerLength ≤ maxLength)
    (short : plain ≤ maxLength) (admitted : payload ≤ limit) (plainAdmitted : plain ≤ limit) :
    readHeader limit (header payload plain) = .ok ⟨payload, plain⟩ := by
  have compressed : signed32 (((header payload plain).drop 1).take 4) =
      (payload + headerLength : Nat) := signed_reads fits
  have declared : signed32 (((header payload plain).drop 5).take 4) = plain := signed_reads short
  have first : (header payload plain).headD 0 = mark := rfl
  simp only [readHeader, compressed, declared, first, ne_eq, not_true_eq_false, ↓reduceIte]
  rw [if_neg (by omega), if_neg (by omega)]
  have lengths : ((payload + headerLength : Nat) : Int).toNat - headerLength = payload :=
    Nat.add_sub_cancel ..
  rw [lengths, Int.toNat_natCast]
  exact if_neg (by omega)

/-- The digest of a block is right, and its payload expands to the plain bytes. -/
theorem unpack_reads (plain : Bytes) :
    unpack (Digest.checksum (body plain)) (header (Lz4.compress plain).length plain.length)
      (Lz4.compress plain) plain.length = .ok plain := by
  rw [unpack, body, if_neg fun differs => differs rfl, Lz4Compression.compress_expands]
  exact if_neg fun differs => differs rfl

/-- A reader takes the bytes of a block and no others, whatever ends the source. -/
theorem block_reads (fits : Fits plain) (admits : Admits limit plain) {source : Source}
    (holds : source.content = wire plain ++ behind) :
    ∃ rest : Source, BlockReader.readBlock limit source = (.ok (some plain), rest) ∧
      rest.content = behind ∧ rest.ending = source.ending := by
  rw [wire, body, List.append_assoc, List.append_assoc] at holds
  obtain ⟨afterDigest, digest, left, ending⟩ := read_front holds
  obtain ⟨afterHeader, head, left, ending'⟩ := read_front left
  obtain ⟨rest, payload, left, ending''⟩ := read_front left
  refine ⟨rest, ?_, left, ending''.trans (ending'.trans ending)⟩
  rw [checksum_length] at digest
  rw [header_length] at head
  have declared := header_reads _ fits.payload fits.plain admits.payload admits.plain
  have present : (Digest.checksum (body plain)).isEmpty = false := by
    rw [List.isEmpty_eq_false_iff, ← List.length_pos_iff, checksum_length]
    decide
  have unpacked := unpack_reads plain
  rw [body] at present unpacked
  simp only [BlockReader.readBlock, digest, present, checksum_length, head, header_length, declared,
    payload, unpacked, Nat.lt_irrefl, Bool.false_eq_true, ↓reduceIte]

/-- Where a source ends cleanly there is no block. -/
theorem block_ended {source : Source} (done : source.content = []) (clean : source.ending = .clean)
    (limit : Nat) :
    ∃ rest : Source, BlockReader.readBlock limit source = (.ok none, rest) ∧
      rest.content = [] ∧ rest.ending = .clean := by
  obtain ⟨rest, digest, left, ending⟩ := read_ended done clean digestLength
  refine ⟨rest, ?_, left, ending⟩
  rw [BlockReader.readBlock, digest]
  rfl

end SqlWire.BlockFraming
