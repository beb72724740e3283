import SqlWire.Wire.Lz4

/-! Compressing into the LZ4 block format. One pass over the input looks up
each position in a table of earlier positions with the same hash, extends what
it finds to both sides, and skips faster the longer it finds nothing. The last
twelve bytes begin no repetition and the last six are in none. -/
namespace SqlWire.Lz4

/-- The byte at a position; zero behind the input. -/
def byteAt (data : Array UInt8) (position : Nat) : UInt8 := data.getD position 0

/-- The little-endian number in the `width` bytes from a position on. -/
def numberAt (data : Array UInt8) (position : Nat) : Nat → Nat
  | 0 => 0
  | width + 1 => (byteAt data position).toNat + 256 * numberAt data (position + 1) width

/-- Number of slots of the position table. -/
def slots : Nat := 4096

/-- Inputs of this size and more hash five bytes instead of four. -/
def longInput : Nat := 65535

/-- The slot of a position: the top bits of a multiplicative hash of the bytes
there. -/
def slotOf (data : Array UInt8) (position : Nat) : Nat :=
  if data.size < longInput then
    numberAt data position 4 * 2654435761 % 0x100000000 / 0x100000
  else
    numberAt data position 8 * 0x1000000 % 0x10000000000000000 * 889523592379 % 0x10000000000000000 /
      0x10000000000000

/-- The latest position seen with each slot's hash. -/
abbrev Table := Array Nat

/-- Put a position under its hash. -/
def remember (data : Array UInt8) (position : Nat) (table : Table) : Table :=
  table.setIfInBounds (slotOf data position) position

/-- The farthest a repetition can reach back. -/
def maxOffset : Nat := 65535

/-- The bytes at the end of the input that no repetition covers. -/
def uncovered : Nat := 6

/-- The bytes at the end of the input at which no repetition begins. -/
def unsearched : Nat := 12

/-- Look for an earlier position with the same four bytes, from `position` on,
at most `most` times. The step grows by one after every thirty-two misses. -/
def search (data : Array UInt8) :
    (most misses position : Nat) → Table → Option (Nat × Nat) × Table
  | 0, _, _, table => (none, table)
  | most + 1, misses, position, table =>
    if position + unsearched ≤ data.size then
      let candidate := table.getD (slotOf data position) 0
      let table := remember data position table
      if position - candidate ≤ maxOffset ∧
          numberAt data candidate 4 = numberAt data position 4 then
        (some (position, candidate), table)
      else search data most (misses + 1) (position + (1 + misses / 32)) table
    else (none, table)

/-- How far both positions can move back over equal bytes, the later one not
before `least`. -/
def agreeBefore (data : Array UInt8) (least : Nat) : (candidate position : Nat) → Nat
  | candidate + 1, position + 1 =>
    if least ≤ position ∧ byteAt data position = byteAt data candidate then
      agreeBefore data least candidate position + 1
    else 0
  | _, _ => 0

/-- How many of the next `most` bytes at both positions agree, added to
`found`. -/
def agreeAfter (data : Array UInt8) : (most candidate position found : Nat) → Nat
  | 0, _, _, found => found
  | most + 1, candidate, position, found =>
    if byteAt data candidate = byteAt data position then
      agreeAfter data most (candidate + 1) (position + 1) (found + 1)
    else found

/-- The bytes from `start` up to `stop`. -/
def slice (data : Array UInt8) (start stop : Nat) : Bytes := (data.extract start stop).toList

/-- Compress what lies from `start` on, where the literals of the next sequence
begin, in at most `most` sequences. The search starts at `position`; `found`
holds the sequences so far, the latest first. -/
def compressFrom (data : Array UInt8) :
    (most start position : Nat) → Table → List Sequence → Block
  | 0, start, _, _, found => ⟨found.reverse, slice data start data.size⟩
  | most + 1, start, position, table, found =>
    match search data data.size 0 position table with
    | (none, _) => ⟨found.reverse, slice data start data.size⟩
    | (some (here, candidate), table) =>
      let back := agreeBefore data start candidate here
      let after := here + minMatch
      let extra := agreeAfter data (data.size - uncovered - after) (candidate + minMatch) after 0
      let stop := after + extra
      let sequence : Sequence :=
        ⟨slice data start (here - back), here - candidate, back + extra⟩
      compressFrom data most stop stop (remember data (stop - 2) table) (sequence :: found)

/-- The shortest input that is searched for repetitions. -/
def minSearched : Nat := 13

/-- Take an input apart into the block that stands for it. -/
def blockOf (bytes : Bytes) : Block :=
  let data := bytes.toArray
  if data.size < minSearched then ⟨[], bytes⟩
  else
    let table := remember data 0 (Array.replicate slots 0)
    compressFrom data data.size 0 1 table []

/-- Compress bytes into one block. -/
def compress (bytes : Bytes) : Bytes := (blockOf bytes).toBytes

end SqlWire.Lz4
