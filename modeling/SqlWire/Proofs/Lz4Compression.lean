import SqlWire.Wire.Compress
import SqlWire.Proofs.Lz4Expansion

/-! What the compressor emits stands for its input. The table only ever names
positions before the one that is searched, so a repetition reaches back into bytes
that are written already; and a repetition is extended over equal bytes only. -/
namespace SqlWire.Lz4Compression
open Lz4 Lz4Expansion

/-! ## The table -/

/-- Every position that a table names is before this one. -/
def Before (table : Table) (position : Nat) : Prop := ∀ slot, table.getD slot 0 < position

private theorem before_later (before : Before table position) (later : position ≤ other) :
    Before table other :=
  fun slot => Nat.lt_of_lt_of_le (before slot) later

private theorem remember_before (before : Before table other) (here : position < other) :
    Before (remember data position table) other := by
  intro slot
  have kept := before slot
  rw [Array.getD_eq_getD_getElem?] at kept ⊢
  rw [remember, Array.getElem?_setIfInBounds]
  split
  · split
    · exact here
    · exact Nat.lt_of_le_of_lt (Nat.zero_le _) here
  · exact kept

/-- What a search finds: a position not before the one it began at, and an earlier one
with the same four bytes. -/
structure Found (data : Array UInt8) (position here candidate : Nat) (table : Table) : Prop where
  forward : position ≤ here
  inside : here + unsearched ≤ data.size
  earlier : candidate < here
  near : here - candidate ≤ maxOffset
  same : numberAt data candidate 4 = numberAt data here 4
  before : Before table (here + 1)

private theorem search_finds (before : Before table position)
    (found : search data most misses position table = (some (here, candidate), after)) :
    Found data position here candidate after := by
  induction most generalizing misses position table with
  | zero => cases found
  | succ most ih =>
    rw [search] at found
    split at found
    next inside =>
      have kept : Before (remember data position table) (position + 1) :=
        remember_before (before_later before (Nat.le_succ _)) (Nat.lt_succ_self _)
      dsimp only at found
      split at found
      next hit =>
        cases found
        exact ⟨Nat.le_refl _, inside, before _, hit.1, hit.2, kept⟩
      · obtain ⟨forward, inside, earlier, near, same, before⟩ :=
          ih (before_later kept (by omega)) found
        exact ⟨by omega, inside, earlier, near, same, before⟩
    · cases found

/-! ## Repetitions -/

private theorem number_bytes (same : numberAt data p width = numberAt data q width) :
    ∀ i < width, byteAt data (p + i) = byteAt data (q + i) := by
  induction width generalizing p q with
  | zero => intro i before; cases before
  | succ width ih =>
    rw [numberAt, numberAt] at same
    have low := (byteAt data p).toNat_lt
    have low' := (byteAt data q).toNat_lt
    have first : byteAt data p = byteAt data q := UInt8.toNat_inj.mp (by omega)
    have others := ih (p := p + 1) (q := q + 1) (by omega)
    rintro (_ | i) before
    · exact first
    · have next := others i (by omega)
      rwa [Nat.add_right_comm, Nat.add_right_comm q] at next

private theorem before_agrees (ordered : candidate ≤ position) (least : start ≤ position) :
    let back := agreeBefore data start candidate position
    back ≤ candidate ∧ start + back ≤ position ∧ ∀ p, position ≤ p + back → p < position →
      byteAt data p = byteAt data (p - (position - candidate)) := by
  fun_induction agreeBefore data start candidate position with
  | case1 candidate position agrees ih =>
    obtain ⟨reach, room, equal⟩ := ih (by omega) agrees.1
    refine ⟨by omega, by omega, fun p after before => ?_⟩
    rw [Nat.succ_sub_succ]
    by_cases last : p = position
    · rw [last, Nat.sub_sub_self (by omega)]
      exact agrees.2
    · exact equal p (by omega) (by omega)
  | case2 => exact ⟨Nat.zero_le _, least, fun p after before => by omega⟩
  | case3 => exact ⟨Nat.zero_le _, least, fun p after before => by omega⟩

private theorem after_agrees (data : Array UInt8) (most candidate position found : Nat)
    (ordered : candidate ≤ position) :
    ∃ extra ≤ most, agreeAfter data most candidate position found = found + extra ∧
      ∀ p, position ≤ p → p < position + extra →
        byteAt data p = byteAt data (p - (position - candidate)) := by
  induction most generalizing candidate position found with
  | zero => exact ⟨0, Nat.le_refl _, rfl, fun p after before => by omega⟩
  | succ most ih =>
    rw [agreeAfter]
    split
    next same =>
      obtain ⟨extra, fits, count, equal⟩ :=
        ih (candidate + 1) (position + 1) (found + 1) (Nat.add_le_add_right ordered 1)
      refine ⟨extra + 1, by omega, by omega, fun p after before => ?_⟩
      rw [Nat.add_sub_add_right] at equal
      by_cases first : p = position
      · rw [first, Nat.sub_sub_self ordered]
        exact same.symm
      · exact equal p (by omega) (by omega)
    · exact ⟨0, Nat.zero_le _, rfl, fun p after before => by omega⟩

/-- What the compressor makes of a find: the literals before it, and a repetition
extended over equal bytes on both sides. -/
theorem find_stands (found : Found data position here candidate table) (ahead : start ≤ position) :
    let back := agreeBefore data start candidate here
    let after := here + minMatch
    let extra := agreeAfter data (data.size - uncovered - after) (candidate + minMatch) after 0
    StandsFor data start (after + extra)
      ⟨slice data start (here - back), here - candidate, back + extra⟩ (here - back) := by
  intro back after extra
  have forward := found.forward
  have earlier := found.earlier
  have inside := found.inside
  obtain ⟨reach, room, before⟩ : back ≤ candidate ∧ start + back ≤ here ∧ _ :=
    before_agrees (Nat.le_of_lt earlier) (Nat.le_trans ahead forward)
  obtain ⟨more, fits, count, behind⟩ :=
    after_agrees data (data.size - uncovered - after) (candidate + minMatch) after 0
      (Nat.add_le_add_right (Nat.le_of_lt earlier) minMatch)
  have width : extra = more := by
    rw [Nat.zero_add] at count
    exact count
  have offset : after - (candidate + minMatch) = here - candidate := Nat.add_sub_add_right ..
  rw [offset, ← width] at behind
  have four : after = here + 4 := rfl
  have ends : data.size - uncovered - after = data.size - 6 - (here + 4) := rfl
  have searched : here + 12 ≤ data.size := inside
  have reached : here - candidate ≤ here - back := Nat.sub_le_sub_left reach here
  refine ⟨rfl, by omega, Nat.sub_pos_of_lt earlier, found.near, reached, ?_, by omega, ?_⟩
  · show after + extra = here - back + (4 + (back + extra))
    omega
  · intro p from_ until_
    by_cases left : p < here
    · exact before p (by omega) left
    by_cases right : after ≤ p
    · exact behind p right until_
    have middle := number_bytes found.same (p - here) (by omega)
    have place : here + (p - here) = p := by omega
    have source : candidate + (p - here) = p - (here - candidate) := by omega
    rw [place, source] at middle
    exact middle.symm

/-- The compressor keeps to what stands for its input, from where it is to the end. -/
theorem compress_covers (most : Nat) (covers : Covers data 0 found.reverse start)
    (before : Before table position) (ahead : start ≤ position) (inside : start ≤ data.size) :
    let block := compressFrom data most start position table found
    ∃ stop ≤ data.size, Covers data 0 block.sequences stop ∧
      block.tail = (data.extract stop data.size).toList := by
  induction most generalizing start position table found with
  | zero => exact ⟨start, inside, covers, rfl⟩
  | succ most ih =>
    rw [compressFrom]
    cases result : search data data.size 0 position table with
    | mk hit table =>
      cases hit with
      | none => exact ⟨start, inside, covers, rfl⟩
      | some place =>
        obtain ⟨here, candidate⟩ := place
        have finds := search_finds before result
        have stands := find_stands finds ahead
        have grown := covers_snoc covers stands
        rw [← List.reverse_cons] at grown
        have passed := finds.before
        refine ih grown (remember_before (before_later passed ?_) ?_) (Nat.le_refl _) stands.inside
        · simp only [minMatch]
          omega
        · simp only [minMatch]
          omega

/-- The sequences of a block stand for its input up to some place, and the tail of the block
is what is behind it. -/
theorem block_covers (plain : Bytes) :
    ∃ stop ≤ plain.toArray.size, Covers plain.toArray 0 (blockOf plain).sequences stop ∧
      (blockOf plain).tail = (plain.toArray.extract stop plain.toArray.size).toList := by
  rw [blockOf]
  split
  · exact ⟨0, Nat.zero_le _, .nil, by simp⟩
  · apply compress_covers _ .nil _ (Nat.zero_le 1) (Nat.zero_le _)
    refine remember_before (fun slot => ?_) Nat.zero_lt_one
    rw [Array.getD_eq_getD_getElem?, Array.getElem?_replicate]
    split
    · exact Nat.zero_lt_one
    · exact Nat.zero_lt_one

/-- Compressed bytes expand to what they were. -/
theorem compress_expands (plain : Bytes) : expand plain.length (compress plain) = .ok plain := by
  obtain ⟨stop, inside, covers, tail⟩ := block_covers plain
  exact block_expands covers inside tail

end SqlWire.Lz4Compression
