import SqlWire.Text.Utf8

/-! The 128-bit digest that guards a block: CityHash128 as it was frozen for the
wire, which differs from later revisions on long input. The input is read in
little-endian words. Every read is written down as it happens, so that which
bytes a digest depends on can be stated next to its value. -/
namespace SqlWire

/-- A read of `width` bytes from byte `start` on. -/
structure Load where
  start : Nat
  width : Nat
deriving DecidableEq, Repr

/-- A computation that reads its input and lists its reads, the latest first. -/
abbrev Loading := StateM (List Load)

namespace Digest

/-- The two words of a digest. -/
structure Pair where
  low : UInt64
  high : UInt64
deriving DecidableEq, Repr

def k0 : UInt64 := 0xc3a5c85c97cb3127
def k1 : UInt64 := 0xb492b66fbe98f273
def k2 : UInt64 := 0x9ae16a3b2f90404f
def k3 : UInt64 := 0xc949d7c7509e6557
def mixer : UInt64 := 0x9ddfea08eb382d69

/-- The little-endian word of `width` bytes from `start` on. Bytes behind the
input count as zero. -/
def wordAt (data : Array UInt8) (start : Nat) : Nat → UInt64
  | 0 => 0
  | width + 1 => wordAt data (start + 1) width <<< 8 ||| (data.getD start 0).toUInt64

/-- Read a word of `width` bytes. -/
def load (data : Array UInt8) (start width : Nat) : Loading UInt64 := do
  modify (⟨start, width⟩ :: ·)
  return wordAt data start width

/-- Read eight bytes. -/
def load64 (data : Array UInt8) (start : Nat) : Loading UInt64 := load data start 8

/-- Read four bytes. -/
def load32 (data : Array UInt8) (start : Nat) : Loading UInt64 := load data start 4

/-- Rotate to the right by one to sixty-three bits. -/
def rotate (word : UInt64) (count : UInt64) : UInt64 :=
  (word >>> count) ||| (word <<< (64 - count))

def shiftMix (word : UInt64) : UInt64 := word ^^^ (word >>> 47)

/-- Two words mixed into one. -/
def mixPair (u v : UInt64) : UInt64 :=
  let a := shiftMix ((u ^^^ v) * mixer)
  let b := shiftMix ((v ^^^ a) * mixer)
  b * mixer

/-- The hash of the `length` bytes from `start` on, sixteen at most. -/
def mixShort (data : Array UInt8) (start length : Nat) : Loading UInt64 := do
  let size := UInt64.ofNat length
  if 8 < length then
    let a ← load64 data start
    let b ← load64 data (start + length - 8)
    return mixPair a (rotate (b + size) size) ^^^ b
  else if 4 ≤ length then
    let a ← load32 data start
    let b ← load32 data (start + length - 4)
    return mixPair (size + (a <<< 3)) b
  else if 0 < length then
    let a ← load data start 1
    let b ← load data (start + length / 2) 1
    let c ← load data (start + length - 1) 1
    let y := a + (b <<< 8)
    let z := size + (c <<< 2)
    return shiftMix (y * k2 ^^^ z * k3) * k2
  else return k2

/-- Four words of running state. -/
structure Quad where
  a : UInt64
  b : UInt64
  c : UInt64
  d : UInt64

/-- Fold `rounds` chunks of sixteen bytes into the state. -/
def murmurRounds (data : Array UInt8) : Nat → Nat → Quad → Loading Quad
  | 0, _, q => return q
  | rounds + 1, position, q => do
    let first ← load64 data position
    let second ← load64 data (position + 8)
    let a := (q.a ^^^ shiftMix (first * k1) * k1) * k1
    let b := q.b ^^^ a
    let c := (q.c ^^^ shiftMix (second * k1) * k1) * k1
    let d := q.d ^^^ c
    murmurRounds data rounds (position + 16) ⟨a, b, c, d⟩

/-- The digest of the `length` bytes from `start` on, fewer than 128. -/
def murmur (data : Array UInt8) (start length : Nat) (seed : Pair) : Loading Pair := do
  let q ← (do
    if length ≤ 16 then
      let a := shiftMix (seed.low * k1) * k1
      let c := seed.high * k1 + (← mixShort data start length)
      let d ← (do
        if 8 ≤ length then return shiftMix (a + (← load64 data start))
        else return shiftMix (a + c))
      return (⟨a, seed.high, c, d⟩ : Quad)
    else
      let c := mixPair ((← load64 data (start + length - 8)) + k1) seed.low
      let d := mixPair (seed.high + UInt64.ofNat length)
        (c + (← load64 data (start + length - 16)))
      murmurRounds data ((length - 1) / 16) start ⟨seed.low + d, seed.high, c, d⟩)
  let a := mixPair q.a q.c
  let b := mixPair q.d q.b
  return ⟨a ^^^ b, mixPair b a⟩

/-- Thirty-two bytes folded into two words. -/
def weakMix (data : Array UInt8) (start : Nat) (a b : UInt64) : Loading Pair := do
  let w ← load64 data start
  let x ← load64 data (start + 8)
  let y ← load64 data (start + 16)
  let z ← load64 data (start + 24)
  let a := a + w
  let b := rotate (b + a + z) 21
  let c := a
  let a := a + x + y
  return ⟨a + z, b + rotate a 44 + c⟩

/-- The running state of a long input. -/
structure Wide where
  x : UInt64
  y : UInt64
  z : UInt64
  v : Pair
  w : Pair

/-- Fold sixty-four bytes into the state. -/
def wideStep (data : Array UInt8) (position : Nat) (s : Wide) : Loading Wide := do
  let x := rotate (s.x + s.y + s.v.low + (← load64 data (position + 16))) 37 * k1
  let y := rotate (s.y + s.v.high + (← load64 data (position + 48))) 42 * k1
  let x := x ^^^ s.w.high
  let y := y ^^^ s.v.low
  let z := rotate (s.z ^^^ s.w.low) 33
  let v ← weakMix data position (s.v.high * k1) (x + s.w.low)
  let w ← weakMix data (position + 32) (z + s.w.high) y
  return ⟨z, y, x, v, w⟩

/-- Fold `steps` chunks of sixty-four bytes into the state. -/
def wideSteps (data : Array UInt8) : Nat → Nat → Wide → Loading Wide
  | 0, _, s => return s
  | steps + 1, position, s => do
    wideSteps data steps (position + 64) (← wideStep data position s)

/-- Fold what is left of a long input into the state, in chunks of thirty-two
bytes from its end backwards. `stop` is the end of the chunk folded next. The
last chunk may reach back into bytes folded before. -/
def tailSteps (data : Array UInt8) : Nat → Nat → Wide → Loading Wide
  | 0, _, s => return s
  | steps + 1, stop, s => do
    let start := stop - 32
    let y := rotate (s.y - s.x) 42 * k0 + s.v.high
    let low := s.w.low + (← load64 data (start + 16))
    let x := rotate s.x 49 * k0 + low
    let low := low + s.v.low
    let v ← weakMix data start s.v.low s.v.high
    tailSteps data steps start ⟨x, y, s.z, v, ⟨low, s.w.high⟩⟩

/-- The digest of the `length` bytes from `start` on, at least 128. -/
def wide (data : Array UInt8) (start length : Nat) (seed : Pair) : Loading Pair := do
  let z := UInt64.ofNat length * k1
  let v0 := rotate (seed.high ^^^ k1) 49 * k1 + (← load64 data start)
  let v1 := rotate v0 42 * k1 + (← load64 data (start + 8))
  let w0 := rotate (seed.high + z) 35 * k1 + seed.low
  let w1 := rotate (seed.low + (← load64 data (start + 88))) 53 * k1
  let s ← wideSteps data (2 * (length / 128)) start
    ⟨seed.low, seed.high, z, ⟨v0, v1⟩, ⟨w0, w1⟩⟩
  let y := s.y + rotate s.w.low 37 * k0 + s.z
  let x := s.x + rotate (s.v.low + s.z) 49 * k0
  let t ← tailSteps data ((length % 128 + 31) / 32) (start + length)
    { s with x := x, y := y }
  let x := mixPair t.x t.v.low
  let y := mixPair t.y t.w.low
  return ⟨mixPair (x + t.v.high) t.w.high + y, mixPair (x + t.w.high) (y + t.v.high)⟩

/-- The digest of the `length` bytes from `start` on, from a seed. -/
def seeded (data : Array UInt8) (start length : Nat) (seed : Pair) : Loading Pair :=
  if length < 128 then murmur data start length seed else wide data start length seed

/-- The digest of the whole input. Its first sixteen bytes, or a shorter input's
first and last eight, become the seed. -/
def whole (data : Array UInt8) : Loading Pair := do
  let length := data.size
  if 16 ≤ length then
    let a ← load64 data 0
    let b ← load64 data 8
    seeded data 16 (length - 16) ⟨a ^^^ k3, b⟩
  else if 8 ≤ length then
    let a ← load64 data 0
    let b ← load64 data (length - 8)
    seeded data length 0 ⟨a ^^^ UInt64.ofNat length * k0, b ^^^ k1⟩
  else seeded data 0 length ⟨k0, k1⟩

/-- The digest of a byte string. -/
def of (bytes : Bytes) : Pair := ((whole bytes.toArray).run []).1

/-- The reads a digest makes, the latest first. -/
def loads (bytes : Bytes) : List Load := ((whole bytes.toArray).run []).2

/-- The eight bytes of a word, least significant first. -/
def wordBytes (word : UInt64) : Bytes :=
  (List.range 8).map fun i => (word >>> UInt64.ofNat (8 * i)).toUInt8

/-- The digest as its sixteen bytes on the wire. -/
def Pair.toBytes (pair : Pair) : Bytes := wordBytes pair.low ++ wordBytes pair.high

/-- The sixteen bytes that guard `bytes`. -/
def checksum (bytes : Bytes) : Bytes := (of bytes).toBytes

end Digest

end SqlWire
