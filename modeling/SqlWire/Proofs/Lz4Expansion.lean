import SqlWire.Wire.Lz4

/-! Expanding a block. What a sequence stands for is said by positions of the plain
bytes: its literals are the bytes at hand, and each byte it repeats is equal to the
one its offset reaches back to. A block whose sequences stand for its plain bytes in
this sense expands to them. -/
namespace SqlWire.Lz4Expansion
open Lz4

/-! ## Lengths -/

private theorem length_rest_reads (acc n : Nat) (rest : Bytes) :
    readLengthRest acc (lengthRest n ++ rest) = .ok (acc + n, rest) := by
  have small : n % 255 < 255 := Nat.mod_lt n (by decide)
  have last : (UInt8.ofNat (n % 255)).toNat = n % 255 :=
    UInt8.toNat_ofNat_of_lt' (Nat.lt_trans small (by decide))
  have stops : UInt8.ofNat (n % 255) ≠ 255 := by
    intro same
    have value : (UInt8.ofNat (n % 255)).toNat = 255 := congrArg UInt8.toNat same
    omega
  have digits : ∀ count acc, readLengthRest acc
      (List.replicate count 255 ++ (UInt8.ofNat (n % 255) :: rest)) =
        .ok (acc + 255 * count + n % 255, rest) := by
    intro count
    induction count with
    | zero => intro acc; simp [readLengthRest, stops, last]
    | succ count ih =>
      intro acc
      rw [List.replicate_succ, List.cons_append, readLengthRest, if_pos rfl, ih, Nat.mul_succ]
      congr 2
      omega
  rw [lengthRest, List.append_assoc, List.singleton_append, digits]
  congr 2
  omega

/-- A length is read back from its nibble and the bytes behind it. -/
theorem length_reads (n : Nat) (rest : Bytes) :
    readLength (min n 15) (lengthBytes n ++ rest) = .ok (n, rest) := by
  unfold readLength lengthBytes
  by_cases small : n < 15
  · rw [if_pos (by omega), if_pos small, List.nil_append, Nat.min_eq_left (by omega)]
  · rw [if_neg (by omega), if_neg small, length_rest_reads]
    congr 2
    omega

private theorem token_nibbles (literals extra : Nat) :
    (token literals extra).toNat / 16 = min literals 15 ∧
      (token literals extra).toNat % 16 = min extra 15 := by
  have exact : (token literals extra).toNat = min literals 15 * 16 + min extra 15 :=
    UInt8.toNat_ofNat_of_lt' (by have : UInt8.size = 256 := rfl; omega)
  rw [exact]
  omega

private theorem split_append (front rest : Bytes) :
    split? front.length (front ++ rest) = some (front, rest) := by
  induction front with
  | nil => rfl
  | cons b front ih => simp [split?, ih]

/-! ## Positions -/

/-- The bytes of `data` before a position. -/
def upTo (data : Array UInt8) (position : Nat) : Array UInt8 := data.extract 0 position

/-- What a sequence stands for: the literals run from `start` to `middle`, and from
there to `stop` each byte equals the one `offset` before it. -/
structure StandsFor (data : Array UInt8) (start stop : Nat) (s : Sequence) (middle : Nat) :
    Prop where
  literals : s.literals = (data.extract start middle).toList
  forward : start ≤ middle
  back : 0 < s.offset
  near : s.offset ≤ 65535
  reached : s.offset ≤ middle
  length : stop = middle + (minMatch + s.extra)
  inside : stop ≤ data.size
  agrees : ∀ position, middle ≤ position → position < stop →
    data.getD position 0 = data.getD (position - s.offset) 0

/-- Sequences that stand one after the other for the bytes between two positions. -/
inductive Covers (data : Array UInt8) : Nat → List Sequence → Nat → Prop where
  | nil : Covers data start [] start
  | cons (here : StandsFor data start middle s literals) (behind : Covers data middle others stop) :
      Covers data start (s :: others) stop

theorem covers_snoc (before : Covers data start front middle)
    (last : StandsFor data middle stop s literals) : Covers data start (front ++ [s]) stop := by
  induction before with
  | nil => exact .cons last .nil
  | cons here behind ih => exact .cons here (ih last)

private theorem up_to_size (inside : position ≤ data.size) :
    (upTo data position).size = position := by
  simp [upTo, inside]

private theorem up_to_append (data : Array UInt8) (forward : start ≤ stop) :
    upTo data start ++ (data.extract start stop).toList = upTo data stop := by
  have joined : data.extract 0 start ++ data.extract start stop = data.extract 0 stop := by
    rw [Array.extract_append_extract, Nat.zero_min, Nat.max_eq_right forward]
  apply Array.ext'
  rw [upTo, upTo, Array.toList_appendList, ← Array.toList_append, joined]

/-- Repeating bytes that agree with those before them writes the bytes that follow. -/
theorem copy_back_agrees (back : 0 < offset) (reached : offset ≤ start)
    (inside : start + count ≤ data.size)
    (agrees : ∀ position, start ≤ position → position < start + count →
      data.getD position 0 = data.getD (position - offset) 0) :
    copyBack offset count (upTo data start) = upTo data (start + count) := by
  induction count generalizing start with
  | zero => rfl
  | succ count ih =>
    have next : (upTo data start).push
        ((upTo data start).getD ((upTo data start).size - offset) 0) = upTo data (start + 1) := by
      have first : start < data.size := by omega
      have there : (upTo data start).getD (start - offset) 0 = data[start] := by
        have same := agrees start (by omega) (by omega)
        have within : start - offset < (upTo data start).size := by
          rw [up_to_size (by omega)]
          omega
        rw [Array.getD_eq_getD_getElem?, Array.getElem?_eq_getElem first,
          Array.getD_eq_getD_getElem?, Array.getElem?_eq_getElem (by omega)] at same
        rw [Array.getD_eq_getD_getElem?, Array.getElem?_eq_getElem within]
        simpa [upTo] using same.symm
      rw [up_to_size (by omega), there, upTo, Array.push_extract_getElem first]
      rfl
    rw [copyBack, next, ih (by omega) (by omega) fun position after before =>
      agrees position (by omega) (by omega)]
    congr 1
    omega

/-! ## Expanding -/

private theorem literals_expand (forward : start ≤ stop) (inside : stop ≤ data.size)
    (room : data.size ≤ size) (rest : Bytes) :
    let literals := (data.extract start stop).toList
    expandLiterals size (min literals.length 15) (lengthBytes literals.length ++ literals ++ rest)
      (upTo data start) = .ok (rest, upTo data stop) := by
  intro literals
  have width : literals.length = stop - start := by
    simp only [literals, Array.length_toList, Array.size_extract]
    omega
  have fits : ¬ size < (upTo data start).size + literals.length := by
    rw [up_to_size (by omega), width]
    omega
  rw [expandLiterals, List.append_assoc, length_reads]
  simp only [bind, Except.bind, split_append, fits, ↓reduceIte]
  rw [up_to_append data forward]

private theorem match_expands (stands : StandsFor data start stop s middle)
    (room : data.size ≤ size)
    (rest : Bytes) :
    expandMatch size (min s.extra 15)
      ([UInt8.ofNat (s.offset % 256), UInt8.ofNat (s.offset / 256)] ++ lengthBytes s.extra ++ rest)
      (upTo data middle) = .ok (rest, upTo data stop) := by
  have near := stands.near
  have inside := stands.inside
  have length := stands.length
  have low : (UInt8.ofNat (s.offset % 256)).toNat = s.offset % 256 :=
    UInt8.toNat_ofNat_of_lt' (Nat.mod_lt _ (by decide))
  have high : (UInt8.ofNat (s.offset / 256)).toNat = s.offset / 256 :=
    UInt8.toNat_ofNat_of_lt' (Nat.div_lt_of_lt_mul (by omega : s.offset < 256 * 256))
  have offset : s.offset % 256 + s.offset / 256 * 256 = s.offset := by omega
  have width : (upTo data middle).size = middle := up_to_size (by omega)
  have nonzero : s.offset ≠ 0 := Nat.ne_of_gt stands.back
  have fits : ¬ size < middle + minMatch + s.extra := by omega
  have reached : ¬ middle < s.offset := Nat.not_lt.mpr stands.reached
  have copied := copy_back_agrees stands.back stands.reached (length ▸ inside)
    (length ▸ stands.agrees)
  rw [← length] at copied
  simp only [expandMatch, List.cons_append, List.nil_append, low, high, offset, nonzero,
    ↓reduceIte, length_reads, bind, Except.bind, width, fits, reached, copied]

private theorem up_to_end (data : Array UInt8) : upTo data data.size = data := by
  simp [upTo]

/-- Sequences and literals that stand for all of the plain bytes expand to them. -/
theorem covers_expand (covers : Covers data start sequences stop) (room : data.size ≤ size)
    (most : sequences.length < count) (inside : stop ≤ data.size) :
    let tail := (data.extract stop data.size).toList
    expandFrom size count (Block.toBytes ⟨sequences, tail⟩) (upTo data start) = .ok data := by
  intro tail
  induction covers generalizing count with
  | @nil start =>
    cases count with
    | zero => cases most
    | succ count =>
      have reads := literals_expand inside (Nat.le_refl _) room []
      have bytes : Block.toBytes ⟨[], tail⟩ =
          token tail.length 0 :: (lengthBytes tail.length ++ tail ++ []) := by
        simp [Block.toBytes]
      rw [bytes, expandFrom, (token_nibbles _ _).1, reads, up_to_end]
      rfl
  | @cons start middle s literals others stop here behind ih =>
    cases count with
    | zero => cases most
    | succ count =>
      have more : expandFrom size count (Block.toBytes ⟨others, tail⟩) (upTo data middle) =
          .ok data := ih (by simpa using most) inside
      have forward := here.forward
      have within := here.inside
      have length := here.length
      have reads := literals_expand forward (by omega : literals ≤ data.size) room
        ([UInt8.ofNat (s.offset % 256), UInt8.ofNat (s.offset / 256)] ++ lengthBytes s.extra ++
          Block.toBytes ⟨others, tail⟩)
      have repeats := match_expands here room (Block.toBytes ⟨others, tail⟩)
      have bytes : Block.toBytes ⟨s :: others, tail⟩ =
          token s.literals.length s.extra ::
            (lengthBytes s.literals.length ++ s.literals ++
              ([UInt8.ofNat (s.offset % 256), UInt8.ofNat (s.offset / 256)] ++
                lengthBytes s.extra ++ Block.toBytes ⟨others, tail⟩)) := by
        simp [Block.toBytes, Sequence.toBytes]
      rw [← here.literals] at reads
      rw [bytes, expandFrom, (token_nibbles _ _).1, (token_nibbles _ _).2, reads]
      simp only [bind, Except.bind, List.cons_append, List.nil_append, List.isEmpty_cons,
        Bool.false_eq_true, ↓reduceIte] at repeats ⊢
      rw [repeats]
      exact more

/-- Every sequence takes up a byte. -/
theorem sequences_fit (block : Block) : block.sequences.length < block.toBytes.length + 1 := by
  have counted : ∀ sequences : List Sequence,
      sequences.length ≤ (sequences.flatMap Sequence.toBytes).length := by
    intro sequences
    induction sequences with
    | nil => simp
    | cons s others ih =>
      simp only [List.flatMap_cons, List.length_append, List.length_cons, Sequence.toBytes]
      omega
  have := counted block.sequences
  simp only [Block.toBytes, List.length_append]
  omega

/-- A block whose parts stand for the plain bytes expands to them. -/
theorem block_expands {block : Block} (covers : Covers data 0 block.sequences stop)
    (inside : stop ≤ data.size) (tail : block.tail = (data.extract stop data.size).toList) :
    expand data.size block.toBytes = .ok data.toList := by
  have expanded := covers_expand covers (Nat.le_refl _) (sequences_fit block) inside
  rw [← tail] at expanded
  have start : upTo data 0 = #[] := by simp [upTo]
  rw [start] at expanded
  rw [expand, expanded]
  rfl

end SqlWire.Lz4Expansion
