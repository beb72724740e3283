import SqlWire.Text.Utf8

/-! The LZ4 block format. A block is a list of sequences, each of which copies
literal bytes and then repeats bytes written before, followed by literals that
end it. Decoding never reads outside its input and never writes more than the
size it was told. -/
namespace SqlWire.Lz4

/-- Literal bytes, and then `extra + 4` bytes repeated from `offset` bytes
back. -/
structure Sequence where
  literals : Bytes
  offset : Nat
  extra : Nat
deriving DecidableEq, Repr

/-- A block taken apart. -/
structure Block where
  sequences : List Sequence
  tail : Bytes
deriving DecidableEq, Repr

/-- The shortest repetition. -/
def minMatch : Nat := 4

/-- The bytes that carry what is left of a length when its nibble is full: one
255 for every 255, and the rest. -/
def lengthRest (n : Nat) : Bytes :=
  List.replicate (n / 255) 255 ++ [UInt8.ofNat (n % 255)]

/-- The bytes of a length behind its nibble. -/
def lengthBytes (n : Nat) : Bytes := if n < 15 then [] else lengthRest (n - 15)

/-- The token of a sequence: both lengths, each cut at fifteen. -/
def token (literals extra : Nat) : UInt8 := UInt8.ofNat (min literals 15 * 16 + min extra 15)

/-- A sequence as bytes. -/
def Sequence.toBytes (s : Sequence) : Bytes :=
  token s.literals.length s.extra :: lengthBytes s.literals.length ++ s.literals ++
    [UInt8.ofNat (s.offset % 256), UInt8.ofNat (s.offset / 256)] ++ lengthBytes s.extra

/-- A block as bytes. -/
def Block.toBytes (b : Block) : Bytes :=
  b.sequences.flatMap Sequence.toBytes ++
    (token b.tail.length 0 :: lengthBytes b.tail.length ++ b.tail)

/-- Why bytes cannot be decoded. -/
inductive Fault where
  | inputExhausted
  | literalOutOfBounds
  /-- The output would take more room than it has. -/
  | outputTooSmall (room needed : Nat)
  | zeroOffset
  | offsetOutOfBounds
deriving DecidableEq, Repr

def Fault.message : Fault → String
  | .inputExhausted => "expected another byte, found none"
  | .literalOutOfBounds => "literal is out of bounds of the input"
  | .outputTooSmall room needed =>
    s!"provided output is too small for the decompressed data, actual {room}, expected {needed}"
  | .zeroOffset => "0 is not a valid match offset"
  | .offsetOutOfBounds => "the offset to copy is not contained in the decompressed buffer"

/-- Add the bytes of a length, up to the first one that is not 255. -/
def readLengthRest (acc : Nat) : Bytes → Except Fault (Nat × Bytes)
  | [] => .error .inputExhausted
  | b :: rest =>
    if b = 255 then readLengthRest (acc + 255) rest else .ok (acc + b.toNat, rest)

/-- The length whose nibble has been read. -/
def readLength (nibble : Nat) (input : Bytes) : Except Fault (Nat × Bytes) :=
  if nibble < 15 then .ok (nibble, input) else readLengthRest 15 input

/-- Repeat `count` bytes from `offset` bytes back. The copy may overtake its
own beginning. -/
def copyBack (offset : Nat) : Nat → Array UInt8 → Array UInt8
  | 0, output => output
  | count + 1, output =>
    copyBack offset count (output.push (output.getD (output.size - offset) 0))

/-- Decode the repetition behind the literals of a sequence. -/
def expandMatch (room nibble : Nat) (input : Bytes) (output : Array UInt8) :
    Except Fault (Bytes × Array UInt8) :=
  match input with
  | low :: high :: rest => do
    let offset := low.toNat + high.toNat * 256
    if offset = 0 then .error .zeroOffset
    else
      let (extra, rest) ← readLength nibble rest
      let needed := output.size + minMatch + extra
      if room < needed then .error (.outputTooSmall room needed)
      else if output.size < offset then .error .offsetOutOfBounds
      else .ok (rest, copyBack offset (minMatch + extra) output)
  | _ => .error .inputExhausted

/-- The first `count` bytes and those behind them, when there are as many. -/
def split? : (count : Nat) → Bytes → Option (Bytes × Bytes)
  | 0, input => some ([], input)
  | _ + 1, [] => none
  | count + 1, b :: input => (split? count input).map fun (front, rest) => (b :: front, rest)

/-- Decode the literals of a sequence. -/
def expandLiterals (room nibble : Nat) (input : Bytes) (output : Array UInt8) :
    Except Fault (Bytes × Array UInt8) := do
  let (count, rest) ← readLength nibble input
  match split? count rest with
  | none => .error .literalOutOfBounds
  | some (literals, rest) =>
    if room < output.size + count then .error (.outputTooSmall room (output.size + count))
    else .ok (rest, output ++ literals)

/-- Decode at most `most` sequences onto `output`. -/
def expandFrom (room : Nat) : Nat → Bytes → Array UInt8 → Except Fault (Array UInt8)
  | 0, _, _ => .error .inputExhausted
  | _ + 1, [], _ => .error .inputExhausted
  | most + 1, token :: input, output => do
    let (rest, output) ← expandLiterals room (token.toNat / 16) input output
    if rest.isEmpty then .ok output
    else
      let (rest, output) ← expandMatch room (token.toNat % 16) rest output
      expandFrom room most rest output

/-- Decode a block into at most `room` bytes. Every sequence takes up a byte, so
the length of the input bounds their number. -/
def expand (room : Nat) (input : Bytes) : Except Fault Bytes :=
  (expandFrom room (input.length + 1) input #[]).map Array.toList

end SqlWire.Lz4
