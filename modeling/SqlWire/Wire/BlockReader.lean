import SqlWire.Wire.Block
import SqlWire.Wire.Source

/-! Reading a stream of blocks as plain bytes. Blocks are read when their bytes
are wanted, and no earlier. The first fault closes the reader: it lets go of the
source, and every later reading meets the same fault again. -/
namespace SqlWire

/-- Why a stream cannot be read on: a block of it is bad, or its source
failed. -/
inductive StreamFault where
  | block (fault : Block.Fault)
  | io (fault : IoFault)
deriving DecidableEq, Repr

/-- A reader of blocks. -/
structure BlockReader where
  /-- Gone once the reader is closed. -/
  source : Option Source
  /-- Plain bytes of the last block that have not been delivered. -/
  pending : Bytes
  /-- The longest payload and the longest plain bytes a block may have. -/
  limit : Nat
  blocksRead : Nat
  /-- The fault that closed the reader. -/
  failure : Option StreamFault
deriving DecidableEq, Repr

namespace BlockReader

def ofSource (source : Source) (limit : Nat) : BlockReader := ⟨some source, [], limit, 0, none⟩

def isClosed (reader : BlockReader) : Bool := reader.source.isNone

/-- Let go of the source and of bytes not delivered. -/
def close (reader : BlockReader) : BlockReader := { reader with source := none, pending := [] }

/-- Read one block from a source. No block is the clean end. The source has
moved on also when this fails. -/
def readBlock (limit : Nat) (source : Source) :
    Except StreamFault (Option Bytes) × Source :=
  match source.read Block.digestLength with
  | (.error fault, source) => (.error (.io fault), source)
  | (.ok digest, source) =>
    if digest.isEmpty then (.ok none, source)
    else if digest.length < Block.digestLength then
      (.error (.block (.shortDigest digest.length)), source)
    else
      match source.read Block.headerLength with
      | (.error fault, source) => (.error (.io fault), source)
      | (.ok header, source) =>
        if header.length < Block.headerLength then
          (.error (.block (.shortHeader header.length)), source)
        else
          match Block.readHeader limit header with
          | .error fault => (.error (.block fault), source)
          | .ok lengths =>
            match source.read lengths.payload with
            | (.error fault, source) => (.error (.io fault), source)
            | (.ok payload, source) =>
              if payload.length < lengths.payload then
                (.error (.block (.shortPayload payload.length lengths.payload)), source)
              else
                match Block.unpack digest header payload lengths.plain with
                | .error fault => (.error (.block fault), source)
                | .ok plain => (.ok (some plain), source)

/-- The fault a reader reports once it has failed. -/
def reportAgain : StreamFault → StreamFault
  | .block fault => .block (.failedBefore fault)
  | .io fault => .io fault

/-- Remember a fault and close. -/
def fail (fault : StreamFault) (reader : BlockReader) : BlockReader :=
  { reader.close with failure := some fault }

/-- Take the bytes at hand, or read a block. A block without bytes is no
result. -/
def pullStep (reader : BlockReader) :
    BlockReader ⊕ (Except StreamFault Bytes × BlockReader) :=
  if reader.pending.isEmpty then
    match reader.source with
    | none => .inr (.error (.block .closed), reader.fail (.block .closed))
    | some source =>
      match readBlock reader.limit source with
      | (.error fault, _) => .inr (.error fault, reader.fail fault)
      | (.ok none, source) => .inr (.ok [], { reader with source := some source })
      | (.ok (some plain), source) =>
        .inl
          { reader with
            source := some source, pending := plain, blocksRead := reader.blocksRead + 1 }
  else .inr (.ok reader.pending, { reader with pending := [] })

/-- What the source has yet to deliver. -/
def deliveries (reader : BlockReader) : List Delivery :=
  (reader.source.map (·.deliveries)).getD []

/-- Take all plain bytes at hand, reading on if there are none. No bytes are the
clean end. -/
def pull (reader : BlockReader) : Except StreamFault Bytes × BlockReader :=
  match reader.failure with
  | some fault => (.error (reportAgain fault), reader)
  | none =>
    match Source.repeatOver pullStep reader.deliveries reader with
    | .inr result => result
    | .inl reader => (.ok [], reader)

/-- Read at most `count` plain bytes, all from one block. When `count` is not
zero, no bytes are the clean end. -/
def read (count : Nat) (reader : BlockReader) : Except StreamFault Bytes × BlockReader :=
  match reader.failure with
  | some fault => (.error (reportAgain fault), reader)
  | none =>
    if count = 0 then (.ok [], reader)
    else
      match reader.pull with
      | (.error fault, reader) => (.error fault, reader)
      | (.ok plain, reader) => (.ok (plain.take count), { reader with pending := plain.drop count })

/-- Read on, keeping the runs of bytes found, the latest first. -/
def readAllStep (state : List Bytes × BlockReader) :
    (List Bytes × BlockReader) ⊕ (Bytes × Option StreamFault × BlockReader) :=
  let (found, reader) := state
  match reader.pull with
  | (.error fault, reader) => .inr (found.reverse.flatten, some fault, reader)
  | (.ok [], reader) => .inr (found.reverse.flatten, none, reader)
  | (.ok plain, reader) => .inl (plain :: found, reader)

/-- Read to the end: the bytes before it, and the fault if there is one. -/
def readAll (reader : BlockReader) : Bytes × Option StreamFault × BlockReader :=
  match Source.repeatOver readAllStep reader.deliveries ([], reader) with
  | .inr result => result
  | .inl (found, reader) => (found.reverse.flatten, none, reader)

end BlockReader

end SqlWire
