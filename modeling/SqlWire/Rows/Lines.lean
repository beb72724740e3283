import SqlWire.Wire.BlockReader

/-! Lines out of a stream of bytes. A stream is a source as it is, or the plain
bytes of its blocks. It is read on only when no whole line is at hand, so that
every line before a fault comes out first; what stands unterminated before a
fault is lost, and before the clean end is a last line. -/
namespace SqlWire

/-- Where the bytes of the lines come from. -/
inductive Feed where
  | plain (source : Source)
  | blocks (reader : BlockReader)
deriving DecidableEq, Repr

namespace Feed

/-- The next bytes; none at the clean end. -/
def pull : Feed → Except StreamFault Bytes × Feed
  | .plain source =>
    let (result, source) := source.pull
    (result.mapError .io, .plain source)
  | .blocks reader =>
    let (result, reader) := reader.pull
    (result, .blocks reader)

/-- What the source of a feed has yet to deliver. -/
def deliveries : Feed → List Delivery
  | .plain source => source.deliveries
  | .blocks reader => reader.deliveries

/-- At least the bytes a feed delivers: those of a source, or those of as many
blocks as it has bytes, each of the largest size. -/
def byteBound : Feed → Nat
  | .plain source => source.content.length
  | .blocks reader =>
    reader.pending.length + (reader.source.map (·.content.length)).getD 0 * reader.limit

end Feed

/-- A feed and the bytes that came from it and are in no line yet. -/
structure Lines where
  pending : Bytes
  feed : Feed
deriving DecidableEq, Repr

namespace Lines

def ofFeed (feed : Feed) : Lines := ⟨[], feed⟩

/-- The byte that ends a line. -/
def lineFeed : UInt8 := 10

/-- The byte that may stand before the end of a line and is then no part of
it. -/
def carriageReturn : UInt8 := 13

/-- The bytes before the first line feed and those behind it. -/
def cut? : Bytes → Option (Bytes × Bytes)
  | [] => none
  | b :: rest =>
    if b = lineFeed then some ([], rest)
    else (cut? rest).map fun (line, rest) => (b :: line, rest)

/-- A terminated line without its carriage return. -/
def dropReturn (line : Bytes) : Bytes :=
  if line.getLast? = some carriageReturn then line.dropLast else line

/-- Read on for a line that has begun with the runs found, the latest first. -/
def nextStep (state : List Bytes × Feed) :
    (List Bytes × Feed) ⊕ (Except StreamFault (Option Bytes) × Lines) :=
  let (found, feed) := state
  match feed.pull with
  | (.error fault, feed) => .inr (.error fault, ⟨found.reverse.flatten, feed⟩)
  | (.ok [], feed) =>
    let line := found.reverse.flatten
    .inr (.ok (if line.isEmpty then none else some line), ⟨[], feed⟩)
  | (.ok more, feed) =>
    match cut? more with
    | some (front, rest) =>
      .inr (.ok (some (dropReturn ((front :: found).reverse.flatten))), ⟨rest, feed⟩)
    | none => .inl (more :: found, feed)

/-- The next line without its ending; none at the clean end. -/
def next (lines : Lines) : Except StreamFault (Option Bytes) × Lines :=
  match cut? lines.pending with
  | some (line, rest) => (.ok (some (dropReturn line)), { lines with pending := rest })
  | none =>
    match Source.repeatOver nextStep lines.feed.deliveries ([lines.pending], lines.feed) with
    | .inr result => result
    | .inl (found, feed) => (.ok none, ⟨found.reverse.flatten, feed⟩)

end Lines

end SqlWire
