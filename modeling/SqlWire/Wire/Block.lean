import SqlWire.Wire.Compress
import SqlWire.Wire.Digest
import SqlWire.Number.Numeral

/-! A block on the wire: a sixteen-byte digest, then a header of nine bytes and
the compressed payload, which the digest covers. The header is a mark, the
length of header and payload, and the length of the plain bytes, both as signed
32-bit little-endian numbers. -/
namespace SqlWire.Block

/-- The byte every header begins with. -/
def mark : UInt8 := 0x82

def headerLength : Nat := 9

def digestLength : Nat := 16

/-- The largest length that fits a header. -/
def maxLength : Nat := 2147483647

/-- The largest block that is read unless a reader is told otherwise. -/
def defaultLimit : Nat := 1073741824

/-- Plain bytes per written block unless a writer is told otherwise. -/
def defaultSize : Nat := 1048576

/-- Why a stream of blocks cannot be read on. -/
inductive Fault where
  | shortDigest (got : Nat)
  | shortHeader (got : Nat)
  | badMark (found : UInt8)
  | lengthTooSmall (length : Int)
  | negativeLength (length : Int)
  | overLimit (plain payload limit : Nat)
  | shortPayload (got length : Nat)
  | digestMismatch
  | undecodable (fault : Lz4.Fault)
  | wrongLength (got declared : Nat)
  /-- The reader was closed before. -/
  | closed
  /-- An earlier reading failed, and the stream with it. -/
  | failedBefore (first : Fault)
  /-- The lengths do not fit the header. -/
  | tooLarge
deriving DecidableEq, Repr

/-- What stands before the message of a fault. -/
def Fault.heading : String := "Frame decode error: "

/-- The cause of a fault in words, without the heading. -/
def Fault.message : Fault → String
  | .shortDigest got => s!"short read: {got} of {digestLength} checksum bytes"
  | .shortHeader got => s!"short read: {got} of {headerLength} header bytes"
  | .badMark found =>
    s!"bad magic 0x{String.ofList (Numeral.hex 2 found.toNat)}, expected 0x{String.ofList (Numeral.hex 2 mark.toNat)}"
  | .lengthTooSmall length => s!"compressed size {length} is smaller than the block header"
  | .negativeLength length => s!"negative uncompressed size {length}"
  | .overLimit plain payload limit =>
    s!"block of {plain} bytes ({payload} compressed) exceeds the {limit} byte limit"
  | .shortPayload got length => s!"short read: {got} of {length} payload bytes"
  | .digestMismatch => "corrupted data: checksum mismatch"
  | .undecodable fault => s!"LZ4 decompression failed: {fault.message}"
  | .wrongLength got declared => s!"block decompressed to {got} bytes, header says {declared}"
  | .closed => "read from a closed stream"
  | .failedBefore first => s!"stream closed after earlier failure: {heading}{first.message}"
  | .tooLarge => "block too large to encode"

/-- The `width` bytes of a number, least significant first. -/
def littleEndian : (width number : Nat) → Bytes
  | 0, _ => []
  | width + 1, number => UInt8.ofNat (number % 256) :: littleEndian width (number / 256)

/-- The number in bytes that stand least significant first. -/
def ofLittleEndian : Bytes → Nat
  | [] => 0
  | b :: rest => b.toNat + 256 * ofLittleEndian rest

/-- The signed 32-bit number in four bytes. -/
def signed32 (bytes : Bytes) : Int :=
  let n := ofLittleEndian bytes
  if n ≤ maxLength then n else (n : Int) - 4294967296

/-- The header of a block with these lengths. -/
def header (payload plain : Nat) : Bytes :=
  mark :: littleEndian 4 (payload + headerLength) ++ littleEndian 4 plain

/-- The block that stands for plain bytes. -/
def encode (plain : Bytes) : Except Fault Bytes :=
  let payload := Lz4.compress plain
  if maxLength < payload.length + headerLength ∨ maxLength < plain.length then .error .tooLarge
  else
    let body := header payload.length plain.length ++ payload
    .ok (Digest.checksum body ++ body)

/-- The lengths a header declares. -/
structure Lengths where
  payload : Nat
  plain : Nat
deriving DecidableEq, Repr

/-- Read a header. Neither length may exceed `limit`. -/
def readHeader (limit : Nat) (bytes : Bytes) : Except Fault Lengths :=
  let found := bytes.headD 0
  if found ≠ mark then .error (.badMark found)
  else
    let compressed := signed32 ((bytes.drop 1).take 4)
    let plain := signed32 ((bytes.drop 5).take 4)
    if compressed < headerLength then .error (.lengthTooSmall compressed)
    else if plain < 0 then .error (.negativeLength plain)
    else
      let lengths : Lengths := ⟨compressed.toNat - headerLength, plain.toNat⟩
      if limit < lengths.payload ∨ limit < lengths.plain then
        .error (.overLimit lengths.plain lengths.payload limit)
      else .ok lengths

/-- Check header and payload against their digest and expand the payload. -/
def unpack (digest header payload : Bytes) (plain : Nat) : Except Fault Bytes :=
  if Digest.checksum (header ++ payload) ≠ digest then .error .digestMismatch
  else
    match Lz4.expand plain payload with
    | .error fault => .error (.undecodable fault)
    | .ok bytes =>
      if bytes.length ≠ plain then .error (.wrongLength bytes.length plain) else .ok bytes

end SqlWire.Block
