import SqlWire.Wire.Block
import SqlWire.Wire.BlockReader
import SqlWire.Wire.Source

/-! Writing plain bytes as a stream of blocks. The writer keeps bytes back until
they fill a block or it is flushed. Bytes leave it only when their block has
reached the sink as a whole; a block that failed is tried again by the next
write or flush. -/
namespace SqlWire

/-- A writer of blocks. -/
structure BlockWriter where
  sink : Sink
  /-- Plain bytes that are in no written block yet. -/
  pending : Bytes
  /-- Plain bytes of a full block. -/
  blockSize : Nat
  blocksWritten : Nat
  blockSize_pos : 0 < blockSize
deriving DecidableEq, Repr

namespace BlockWriter

/-- A writer of blocks of `blockSize` bytes; zero counts as one. -/
def ofSink (sink : Sink) (blockSize : Nat) : BlockWriter :=
  ⟨sink, [], max 1 blockSize, 0, by omega⟩

/-- Write the first `count` pending bytes as one block. -/
def emit (count : Nat) (writer : BlockWriter) : Option StreamFault × BlockWriter :=
  match Block.encode (writer.pending.take count) with
  | .error fault => (some (.block fault), writer)
  | .ok block =>
    match writer.sink.write block with
    | (some fault, sink) => (some (.io fault), { writer with sink := sink })
    | (none, sink) =>
      (none, { writer with
        sink := sink, pending := writer.pending.drop count,
        blocksWritten := writer.blocksWritten + 1 })

/-- Write `blocks` full blocks, up to the first fault. -/
def emitFull : (blocks : Nat) → BlockWriter → Option StreamFault × BlockWriter
  | 0, writer => (none, writer)
  | blocks + 1, writer =>
    match writer.emit writer.blockSize with
    | (some fault, writer) => (some fault, writer)
    | (none, writer) => emitFull blocks writer

/-- Accept bytes, and write the blocks they fill. They stay accepted if that
fails. -/
def write (data : Bytes) (writer : BlockWriter) : Option StreamFault × BlockWriter :=
  let pending := writer.pending ++ data
  emitFull (pending.length / writer.blockSize) { writer with pending := pending }

/-- Accept bytes unless there are none. -/
def writeAll (data : Bytes) (writer : BlockWriter) : Option StreamFault × BlockWriter :=
  if data.isEmpty then (none, writer) else writer.write data

/-- Write what is pending as one block and flush the sink. -/
def flush (writer : BlockWriter) : Option StreamFault × BlockWriter :=
  let (fault, writer) :=
    if writer.pending.isEmpty then (none, writer) else writer.emit writer.pending.length
  match fault with
  | some fault => (some fault, writer)
  | none =>
    let (fault, sink) := writer.sink.flush
    (fault.map .io, { writer with sink := sink })

end BlockWriter

end SqlWire
