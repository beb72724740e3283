import SqlWire.Proofs.Lz4Compression

/-! How long compressed bytes are. A sequence is longer than the bytes it stands for by one in
two hundred and fifty-five at most. So nothing comes to more bytes than an input does that is
all literals: its own, those of its length, and the token. -/
namespace SqlWire.Lz4Size
open Lz4 Lz4Expansion Lz4Compression

/-- The bytes of a length: one for every 255 behind the first fifteen, and one more. -/
theorem length_bytes_length (n : Nat) : (lengthBytes n).length = (n + 240) / 255 := by
  rw [lengthBytes]
  split
  · rw [List.length_nil]
    omega
  · rw [lengthRest, List.length_append, List.length_replicate, List.length_singleton]
    omega

private theorem sequence_length (s : Sequence) :
    s.toBytes.length =
      s.literals.length + (s.literals.length + 240) / 255 + (s.extra + 240) / 255 + 3 := by
  simp only [Sequence.toBytes, List.length_cons, List.length_append, List.length_nil,
    length_bytes_length]
  omega

private theorem literals_length (stands : StandsFor data start stop s middle) :
    s.literals.length = middle - start := by
  have length := stands.length
  have inside := stands.inside
  rw [stands.literals, Array.length_toList, Array.size_extract, Nat.min_eq_left (by omega)]

/-- A sequence is hardly longer than what it stands for: the shortest repetition saves the four
bytes that token, offset and the last byte of a length take up. -/
theorem sequence_small (stands : StandsFor data start stop s middle) :
    255 * s.toBytes.length ≤ 256 * (stop - start) := by
  have forward := stands.forward
  have length := stands.length
  rw [sequence_length, literals_length stands, length, minMatch]
  omega

private theorem covers_small (covers : Covers data start sequences stop) :
    start ≤ stop ∧
      255 * (sequences.flatMap Sequence.toBytes).length ≤ 256 * (stop - start) := by
  induction covers with
  | nil => simp
  | cons here behind ih =>
    have forward := here.forward
    have length := here.length
    have small := sequence_small here
    rw [List.flatMap_cons, List.length_append]
    omega

/-- The most that compressed bytes of this many come to. -/
def worst (length : Nat) : Nat := length + (length + 240) / 255 + 1

/-- No bytes come to more than so many literals do. -/
theorem compress_small (plain : Bytes) : (compress plain).length ≤ worst plain.length := by
  obtain ⟨stop, inside, covers, tail⟩ := block_covers plain
  obtain ⟨-, small⟩ := covers_small covers
  have rest : (blockOf plain).tail.length = plain.length - stop := by
    rw [tail, Array.length_toList, Array.size_extract, Nat.min_self, List.size_toArray]
  rw [List.size_toArray] at inside
  rw [compress, Block.toBytes, List.length_append, List.length_append, List.length_cons,
    length_bytes_length, rest, worst]
  omega

theorem worst_grows (le : length ≤ other) : worst length ≤ worst other := by
  rw [worst, worst]
  omega

end SqlWire.Lz4Size
