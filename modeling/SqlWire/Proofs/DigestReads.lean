import SqlWire.Wire.Digest

/-! Which bytes a digest reads. The reads are worked out a second time with the positions as
integers and the loops run by their guards, so that a position before the input would be
negative and not zero. They depend on nothing but the length of the input; none reaches
outside of it, and together they pass over every byte. -/
namespace SqlWire.DigestReads
open Digest

/-! ## The reads of a length -/

/-- A read of `width` bytes from byte `start` on, which may be before the input. -/
structure Span where
  start : Int
  width : Nat
deriving DecidableEq, Repr

def span (load : Load) : Span := ⟨load.start, load.width⟩

/-- The reads for the hash of sixteen bytes at most. -/
def shortSpans (start length : Int) : List Span :=
  if 8 < length then [⟨start, 8⟩, ⟨start + length - 8, 8⟩]
  else if 4 ≤ length then [⟨start, 4⟩, ⟨start + length - 4, 4⟩]
  else if 0 < length then [⟨start, 1⟩, ⟨start + length / 2, 1⟩, ⟨start + length - 1, 1⟩]
  else []

/-- Chunks of sixteen bytes, as long as any of `left` bytes are left. -/
def chunkSpans (position left : Int) : List Span :=
  if 0 < left then
    ⟨position, 8⟩ :: ⟨position + 8, 8⟩ :: chunkSpans (position + 16) (left - 16)
  else []
termination_by left.toNat
decreasing_by omega

/-- The reads for the digest of fewer than 128 bytes. -/
def murmurSpans (start length : Int) : List Span :=
  if length ≤ 16 then shortSpans start length ++ if 8 ≤ length then [⟨start, 8⟩] else []
  else
    ⟨start + length - 8, 8⟩ :: ⟨start + length - 16, 8⟩ :: chunkSpans start (length - 16)

/-- Four words in a row. -/
def rowSpans (position : Int) : List Span :=
  [⟨position, 8⟩, ⟨position + 8, 8⟩, ⟨position + 16, 8⟩, ⟨position + 24, 8⟩]

/-- Sixty-four bytes, two words of them ahead of the others. -/
def stepSpans (position : Int) : List Span :=
  ⟨position + 16, 8⟩ :: ⟨position + 48, 8⟩ ::
    (rowSpans position ++ rowSpans (position + 32))

/-- Twice sixty-four bytes. -/
def pairSpans (position : Int) : List Span := stepSpans position ++ stepSpans (position + 64)

/-- Pairs of steps, one and then again while 128 bytes or more are left. -/
def stepsSpans (position left : Int) : List Span :=
  if left - 128 < 128 then pairSpans position
  else pairSpans position ++ stepsSpans (position + 128) (left - 128)
termination_by left.toNat
decreasing_by omega

/-- Thirty-two bytes at a time, backwards from `stop`, as long as not all of the last `left`
bytes are done. -/
def tailSpans (stop left done : Int) : List Span :=
  if done < left then
    ⟨stop - (done + 32) + 16, 8⟩ ::
      (rowSpans (stop - (done + 32)) ++ tailSpans stop left (done + 32))
  else []
termination_by (left - done).toNat
decreasing_by omega

/-- The reads for the digest of 128 bytes or more. -/
def wideSpans (start length : Int) : List Span :=
  ⟨start, 8⟩ :: ⟨start + 8, 8⟩ :: ⟨start + 88, 8⟩ ::
    (stepsSpans start length ++ tailSpans (start + length) (length % 128) 0)

def seededSpans (start length : Int) : List Span :=
  if length < 128 then murmurSpans start length else wideSpans start length

/-- The reads for the digest of an input of this length, in their order. -/
def spans (length : Int) : List Span :=
  if 16 ≤ length then ⟨0, 8⟩ :: ⟨8, 8⟩ :: seededSpans 16 (length - 16)
  else if 8 ≤ length then ⟨0, 8⟩ :: ⟨length - 8, 8⟩ :: seededSpans length 0
  else seededSpans 0 length

/-! ## The reads that are made -/

/-- A computation makes these reads. -/
def Reads (computation : Loading α) (made : List Span) : Prop :=
  ∀ log, (computation.run log).2.map span = made.reverse ++ log.map span

private theorem reads_pure (value : α) : Reads (pure value) [] := fun _ => rfl

private theorem reads_load (data : Array UInt8) (start width : Nat) :
    Reads (load data start width) [⟨start, width⟩] := fun _ => rfl

private theorem reads_bind {computation : Loading α} {next : α → Loading β}
    (first : Reads computation made) (second : ∀ value, Reads (next value) more) :
    Reads (computation >>= next) (made ++ more) := by
  intro log
  have behind := second (computation.run log).1 (computation.run log).2
  rw [first log, ← List.append_assoc, ← List.reverse_append] at behind
  exact behind

/-- The first of several reads is a word. -/
theorem reads_word {next : UInt64 → Loading α} (data : Array UInt8) (start width : Nat)
    (rest : ∀ value, Reads (next value) more) :
    Reads (load data start width >>= next) (⟨start, width⟩ :: more) :=
  reads_bind (reads_load data start width) rest

private theorem reads_choice {p q : Prop} [Decidable p] [Decidable q] {yes no : Loading α}
    (same : p ↔ q) (holds : p → Reads yes made) (fails : ¬ p → Reads no more) :
    Reads (if p then yes else no) (if q then made else more) := by
  by_cases here : p
  · rw [if_pos here, if_pos (same.mp here)]
    exact holds here
  · rw [if_neg here, if_neg (here ∘ same.mpr)]
    exact fails here

private theorem short_reads (data : Array UInt8) (start length : Nat) :
    Reads (mixShort data start length) (shortSpans start length) := by
  refine reads_choice (by omega) (fun long => ?_) fun _ => ?_
  · have back : ((start + length - 8 : Nat) : Int) = start + length - 8 := by omega
    rw [← back]
    exact reads_word data _ 8 fun _ => reads_word data _ 8 fun _ => reads_pure _
  refine reads_choice (by omega) (fun middle => ?_) fun _ => ?_
  · have back : ((start + length - 4 : Nat) : Int) = start + length - 4 := by omega
    rw [← back]
    exact reads_word data _ 4 fun _ => reads_word data _ 4 fun _ => reads_pure _
  refine reads_choice (by omega) (fun some => ?_) fun _ => reads_pure _
  have half : ((start + length / 2 : Nat) : Int) = start + length / 2 := by omega
  have back : ((start + length - 1 : Nat) : Int) = start + length - 1 := by omega
  rw [← half, ← back]
  exact reads_word data _ 1 fun _ => reads_word data _ 1 fun _ => reads_word data _ 1 fun _ =>
    reads_pure _

/-- There are as many rounds as chunks are begun. -/
theorem rounds_read (data : Array UInt8) (rounds position : Nat) (left : Int) (state : Quad)
    (begun : 16 * (rounds : Int) - 16 < left) (enough : left ≤ 16 * rounds) :
    Reads (murmurRounds data rounds position state) (chunkSpans position left) := by
  induction rounds generalizing position left state with
  | zero =>
    rw [chunkSpans, if_neg (by omega)]
    exact reads_pure state
  | succ rounds ih =>
    have next := fun state => ih (position + 16) (left - 16) state (by omega) (by omega)
    rw [chunkSpans, if_pos (by omega)]
    exact reads_word data position 8 fun _ => reads_word data (position + 8) 8 fun _ => next _

private theorem murmur_reads (data : Array UInt8) (start length : Nat) (seed : Pair) :
    Reads (murmur data start length seed) (murmurSpans start length) := by
  unfold murmur murmurSpans
  rw [← List.append_nil (ite ..)]
  refine reads_bind (reads_choice (by omega) (fun short => ?_) fun long => ?_) fun _ =>
    reads_pure _
  · refine reads_bind (short_reads data start length) fun _ => ?_
    rw [← List.append_nil (ite ..)]
    refine reads_bind (reads_choice (by omega) (fun _ => ?_) fun _ => ?_) fun _ => reads_pure _
    · exact reads_word data start 8 fun _ => reads_pure _
    · exact reads_pure _
  · have last : ((start + length - 8 : Nat) : Int) = start + length - 8 := by omega
    have before : ((start + length - 16 : Nat) : Int) = start + length - 16 := by omega
    rw [← last, ← before]
    exact reads_word data _ 8 fun _ => reads_word data _ 8 fun _ =>
      rounds_read data _ start _ _ (by omega) (by omega)

private theorem row_reads (data : Array UInt8) (start : Nat) (a b : UInt64) :
    Reads (weakMix data start a b) (rowSpans start) :=
  reads_word data start 8 fun _ => reads_word data (start + 8) 8 fun _ =>
    reads_word data (start + 16) 8 fun _ => reads_word data (start + 24) 8 fun _ => reads_pure _

private theorem step_reads (data : Array UInt8) (position : Nat) (state : Wide) :
    Reads (wideStep data position state) (stepSpans position) := by
  refine reads_word data (position + 16) 8 fun _ => reads_word data (position + 48) 8 fun _ => ?_
  refine reads_bind (row_reads data position _ _) fun _ => ?_
  rw [← List.append_nil (rowSpans _)]
  exact reads_bind (row_reads data (position + 32) _ _) fun _ => reads_pure _

/-- There are two steps for each 128 bytes. -/
theorem steps_read (data : Array UInt8) (pairs position : Nat) (left : Int) (state : Wide)
    (whole : 128 * ((pairs : Int) + 1) ≤ left) (last : left < 128 * ((pairs : Int) + 2)) :
    Reads (wideSteps data (2 * (pairs + 1)) position state) (stepsSpans position left) := by
  induction pairs generalizing position left state with
  | zero =>
    rw [stepsSpans, if_pos (by omega), pairSpans]
    refine reads_bind (step_reads data position state) fun _ => ?_
    rw [← List.append_nil (stepSpans _)]
    exact reads_bind (step_reads data (position + 64) _) fun _ => reads_pure _
  | succ pairs ih =>
    have next := fun state => ih (position + 128) (left - 128) state (by omega) (by omega)
    rw [stepsSpans, if_neg (by omega), pairSpans, List.append_assoc]
    refine reads_bind (step_reads data position state) fun _ => ?_
    exact reads_bind (step_reads data (position + 64) _) fun _ => next _

/-- There are as many steps as stretches of thirty-two bytes are begun, and none of them leads
to before the input. -/
theorem tail_reads (data : Array UInt8) (steps stop : Nat) (left done : Int) (state : Wide)
    (room : 32 * steps ≤ stop) (begun : 32 * (steps : Int) - 32 < left - done)
    (enough : left - done ≤ 32 * steps) :
    Reads (tailSteps data steps stop state) (tailSpans (stop + done) left done) := by
  induction steps generalizing stop done state with
  | zero =>
    rw [tailSpans, if_neg (by omega)]
    exact reads_pure state
  | succ steps ih =>
    have start : ((stop - 32 : Nat) : Int) = stop + done - (done + 32) := by omega
    have same : ((stop - 32 : Nat) : Int) + (done + 32) = stop + done := by omega
    have next := fun state => ih (stop - 32) (done + 32) state (by omega) (by omega) (by omega)
    rw [same] at next
    rw [tailSpans, if_pos (by omega), ← start]
    refine reads_word data (stop - 32 + 16) 8 fun _ => ?_
    exact reads_bind (row_reads data (stop - 32) _ _) fun _ => next _

private theorem wide_reads (data : Array UInt8) (start length : Nat) (seed : Pair)
    (long : 128 ≤ length) : Reads (wide data start length seed) (wideSpans start length) := by
  have pairs : 2 * (length / 128) = 2 * (length / 128 - 1 + 1) := by omega
  refine reads_word data start 8 fun _ => reads_word data (start + 8) 8 fun _ => ?_
  refine reads_word data (start + 88) 8 fun _ => ?_
  rw [pairs]
  refine reads_bind (steps_read data _ start _ _ (by omega) (by omega)) fun _ => ?_
  have tail := fun state => tail_reads data ((length % 128 + 31) / 32) (start + length)
    ((length : Int) % 128) 0 state (by omega) (by omega) (by omega)
  rw [Int.add_zero, Int.natCast_add] at tail
  rw [← List.append_nil (tailSpans ..)]
  exact reads_bind (tail _) fun _ => reads_pure _

private theorem seeded_reads (data : Array UInt8) (start length : Nat) (seed : Pair) :
    Reads (seeded data start length seed) (seededSpans start length) := by
  refine reads_choice (by omega) (fun _ => murmur_reads data start length seed) fun long => ?_
  exact wide_reads data start length seed (Nat.le_of_not_lt long)

private theorem whole_reads (data : Array UInt8) : Reads (whole data) (spans data.size) := by
  refine reads_choice (by omega) (fun long => ?_) fun _ => ?_
  · have rest : ((data.size - 16 : Nat) : Int) = data.size - 16 := by omega
    rw [← rest]
    exact reads_word data 0 8 fun _ => reads_word data 8 8 fun _ => seeded_reads data 16 _ _
  refine reads_choice (by omega) (fun middle => ?_) fun _ => seeded_reads data 0 _ _
  have last : ((data.size - 8 : Nat) : Int) = data.size - 8 := by omega
  rw [← last]
  exact reads_word data 0 8 fun _ => reads_word data _ 8 fun _ => seeded_reads data _ 0 _

private theorem loads_reversed (bytes : Bytes) :
    (loads bytes).reverse.map span = spans bytes.length := by
  have made := whole_reads bytes.toArray []
  rw [List.map_nil, List.append_nil, List.size_toArray] at made
  rw [List.map_reverse, loads, made, List.reverse_reverse]

/-! ## Inside the input -/

/-- No read reaches out of the bytes from `low` on before `high`. -/
def Within (low high : Int) (made : List Span) : Prop :=
  ∀ read ∈ made, low ≤ read.start ∧ read.start + read.width ≤ high

private theorem within_nil (low high : Int) : Within low high [] := by
  intro read member
  cases member

private theorem within_cons {read : Span} : Within low high (read :: made) ↔
    (low ≤ read.start ∧ read.start + read.width ≤ high) ∧ Within low high made :=
  List.forall_mem_cons

private theorem within_append : Within low high (made ++ more) ↔
    Within low high made ∧ Within low high more :=
  List.forall_mem_append

private theorem within_wider (inside : Within low high made) (below : lower ≤ low)
    (above : high ≤ higher) : Within lower higher made := by
  intro read member
  obtain ⟨first, last⟩ := inside read member
  exact ⟨Int.le_trans below first, Int.le_trans last above⟩

private theorem short_within (start length : Int) :
    Within start (start + length) (shortSpans start length) := by
  unfold shortSpans
  split
  · simp only [within_cons, within_nil, and_true]
    omega
  split
  · simp only [within_cons, within_nil, and_true]
    omega
  split
  · simp only [within_cons, within_nil, and_true]
    omega
  · exact within_nil _ _

/-- The last chunk may reach fifteen bytes beyond what is left. -/
theorem chunks_within (position left : Int) :
    Within position (position + left + 15) (chunkSpans position left) := by
  fun_induction chunkSpans position left with
  | case1 position left more ih =>
    have others : Within position (position + left + 15)
        (chunkSpans (position + 16) (left - 16)) :=
      within_wider ih (by omega) (by omega)
    simp only [within_cons, others, and_true]
    omega
  | case2 => exact within_nil _ _

private theorem murmur_within (start length : Int) :
    Within start (start + length) (murmurSpans start length) := by
  unfold murmurSpans
  split
  next short =>
    refine within_append.mpr ⟨short_within start length, ?_⟩
    split
    · simp only [within_cons, within_nil, and_true]
      omega
    · exact within_nil _ _
  next long =>
    have chunks : Within start (start + length) (chunkSpans start (length - 16)) :=
      within_wider (chunks_within start (length - 16)) (by omega) (by omega)
    simp only [within_cons, chunks, and_true]
    omega

private theorem pair_within (position : Int) :
    Within position (position + 128) (pairSpans position) := by
  simp only [pairSpans, stepSpans, rowSpans, within_cons, within_append, within_nil, and_true]
  omega

private theorem steps_within (position left : Int) (enough : 128 ≤ left) :
    Within position (position + left) (stepsSpans position left) := by
  fun_induction stepsSpans position left with
  | case1 position left last => exact within_wider (pair_within position) (by omega) (by omega)
  | case2 position left more ih =>
    apply within_append.mpr
    constructor
    · exact within_wider (pair_within position) (by omega) (by omega)
    · exact within_wider (ih (by omega)) (by omega) (by omega)

/-- The last read backwards may reach thirty-one bytes before what is left. -/
theorem tail_within (stop left done : Int) :
    Within (stop - left - 31) (stop - done) (tailSpans stop left done) := by
  fun_induction tailSpans stop left done with
  | case1 done more ih =>
    have others : Within (stop - left - 31) (stop - done) (tailSpans stop left (done + 32)) :=
      within_wider ih (by omega) (by omega)
    simp only [rowSpans, within_cons, within_append, within_nil, others, and_true]
    omega
  | case2 => exact within_nil _ _

private theorem wide_within (start length : Int) (long : 128 ≤ length) :
    Within start (start + length) (wideSpans start length) := by
  have tail : Within start (start + length) (tailSpans (start + length) (length % 128) 0) :=
    within_wider (tail_within _ _ _) (by omega) (by omega)
  simp only [wideSpans, within_cons, within_append, steps_within start length long, tail,
    and_true]
  omega

private theorem seeded_within (start length : Int) :
    Within start (start + length) (seededSpans start length) := by
  unfold seededSpans
  split
  · exact murmur_within start length
  next long => exact wide_within start length (Int.not_lt.mp long)

private theorem spans_within (length : Int) : Within 0 length (spans length) := by
  unfold spans
  split
  · have rest : Within 0 length (seededSpans 16 (length - 16)) :=
      within_wider (seeded_within _ _) (by omega) (by omega)
    simp only [within_cons, rest, and_true]
    omega
  split
  · have rest : Within 0 length (seededSpans length 0) :=
      within_wider (seeded_within _ _) (by omega) (by omega)
    simp only [within_cons, rest, and_true]
    omega
  · exact within_wider (seeded_within _ _) (by omega) (by omega)

/-! ## Every byte -/

/-- One of the reads passes over this byte. -/
def Passes (place : Int) (made : List Span) : Prop :=
  ∃ read ∈ made, read.start ≤ place ∧ place < read.start + read.width

private theorem passes_nil (place : Int) : ¬ Passes place [] := by
  rintro ⟨read, member, -⟩
  cases member

private theorem passes_cons {read : Span} : Passes place (read :: made) ↔
    (read.start ≤ place ∧ place < read.start + read.width) ∨ Passes place made := by
  simp only [Passes, List.mem_cons, or_and_right, exists_or, exists_eq_left]

private theorem passes_append :
    Passes place (made ++ more) ↔ Passes place made ∨ Passes place more := by
  simp only [Passes, List.mem_append, or_and_right, exists_or]

private theorem short_passes (start length : Int) (short : length ≤ 16) (first : start ≤ place)
    (last : place < start + length) : Passes place (shortSpans start length) := by
  unfold shortSpans
  split
  · simp only [passes_cons]
    omega
  split
  · simp only [passes_cons]
    omega
  rw [if_pos (by omega)]
  simp only [passes_cons]
  omega

private theorem chunks_pass (position left : Int) (first : position ≤ place)
    (last : place < position + left) : Passes place (chunkSpans position left) := by
  fun_induction chunkSpans position left with
  | case1 position left more ih =>
    simp only [passes_cons]
    by_cases here : place < position + 16
    · omega
    · exact .inr (.inr (ih (by omega) (by omega)))
  | case2 => omega

private theorem murmur_passes (start length : Int) (first : start ≤ place)
    (last : place < start + length) : Passes place (murmurSpans start length) := by
  unfold murmurSpans
  split
  next short => exact passes_append.mpr (.inl (short_passes start length short first last))
  next long =>
    simp only [passes_cons]
    by_cases chunk : place < start + (length - 16)
    · exact .inr (.inr (chunks_pass start (length - 16) first chunk))
    · omega

private theorem pair_passes (position : Int) (first : position ≤ place)
    (last : place < position + 128) :
    Passes place (pairSpans position) := by
  simp only [pairSpans, stepSpans, rowSpans, passes_cons, passes_append, passes_nil]
  omega

/-- The steps pass over all but what is left of the last 128 bytes. -/
theorem steps_pass (position left : Int) (first : position ≤ place)
    (last : place < position + (left - left % 128)) : Passes place (stepsSpans position left) := by
  fun_induction stepsSpans position left with
  | case1 position left few => exact pair_passes position first (by omega)
  | case2 position left more ih =>
    rw [passes_append]
    by_cases here : place < position + 128
    · exact .inl (pair_passes position first here)
    · exact .inr (ih (by omega) (by omega))

private theorem tail_passes (stop left done : Int) (first : stop - left ≤ place)
    (last : place < stop - done) : Passes place (tailSpans stop left done) := by
  fun_induction tailSpans stop left done with
  | case1 done more ih =>
    simp only [rowSpans, passes_cons, passes_append, passes_nil]
    by_cases here : stop - (done + 32) ≤ place
    · omega
    · exact .inr (.inr (ih (by omega)))
  | case2 => omega

private theorem wide_passes (start length : Int) (first : start ≤ place)
    (last : place < start + length) :
    Passes place (wideSpans start length) := by
  simp only [wideSpans, passes_cons, passes_append]
  by_cases step : place < start + (length - length % 128)
  · exact .inr (.inr (.inr (.inl (steps_pass start length first step))))
  · exact .inr (.inr (.inr (.inr (tail_passes _ _ _ (by omega) (by omega)))))

private theorem seeded_passes (start length : Int) (first : start ≤ place)
    (last : place < start + length) : Passes place (seededSpans start length) := by
  unfold seededSpans
  split
  · exact murmur_passes start length first last
  · exact wide_passes start length first last

private theorem spans_pass (length : Int) (first : 0 ≤ place) (last : place < length) :
    Passes place (spans length) := by
  unfold spans
  split
  · simp only [passes_cons]
    by_cases seed : place < 16
    · omega
    · exact .inr (.inr (seeded_passes 16 (length - 16) (by omega) (by omega)))
  split
  · simp only [passes_cons]
    omega
  · exact seeded_passes 0 length first (by omega)

/-- The reads of a digest are those worked out for the length of its input with integers and
by the guards of the loops, so no position falls short of zero; each of them lies inside the
input, and every byte of the input is under one of them. -/
theorem digest_reads_whole_input (bytes : Bytes) :
    (loads bytes).reverse.map span = spans bytes.length ∧
      (∀ load ∈ loads bytes, load.start + load.width ≤ bytes.length) ∧
      ∀ place < bytes.length, ∃ load ∈ loads bytes,
        load.start ≤ place ∧ place < load.start + load.width := by
  have made := loads_reversed bytes
  refine ⟨made, fun load member => ?_, fun place inside => ?_⟩
  · have listed : span load ∈ spans bytes.length := by
      rw [← made]
      exact List.mem_map_of_mem (List.mem_reverse.mpr member)
    obtain ⟨-, last⟩ := spans_within bytes.length (span load) listed
    exact Int.ofNat_le.mp last
  · obtain ⟨read, listed, first, last⟩ :=
      spans_pass bytes.length (Int.natCast_nonneg place) (Int.ofNat_lt.mpr inside)
    rw [← made] at listed
    obtain ⟨load, member, rfl⟩ := List.mem_map.mp listed
    exact ⟨load, List.mem_reverse.mp member, Int.ofNat_le.mp first, Int.ofNat_lt.mp last⟩

/-- Behind the seed and one round of 128 bytes, seventeen bytes are left. The tail reads them
with fifteen bytes that were read before. -/
theorem tail_reads_back :
    let bytes : Bytes := List.replicate 161 7
    (loads bytes).reverse.map span = spans 161 ∧
      ⟨129, 8⟩ ∈ loads bytes ∧ 129 + 8 ≤ bytes.length ∧ 160 < bytes.length ∧
      ∃ load ∈ loads bytes, load.start ≤ 160 ∧ 160 < load.start + load.width := by
  intro bytes
  have back : ⟨129, 8⟩ ∈ loads bytes := by decide +kernel
  have size : bytes.length = 161 := List.length_replicate
  have last : 160 < bytes.length := by omega
  obtain ⟨made, inside, passed⟩ := digest_reads_whole_input bytes
  exact ⟨made, back, inside ⟨129, 8⟩ back, last, passed 160 last⟩

end SqlWire.DigestReads
