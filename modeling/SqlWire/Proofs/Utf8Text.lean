import SqlWire.Text.Utf8

/-! Text survives UTF-8. The bytes of a character are read back as that character,
whatever stands behind them, and no byte of a character above the ASCII range can be
taken for an ASCII character. -/
namespace SqlWire.Utf8Text
open Text

/-! ## Bytes by their numbers -/

theorem byte_number (fits : n < 256) : (UInt8.ofNat n).toNat = n := by
  rw [UInt8.toNat_ofNat', Nat.mod_eq_of_lt fits]

/-- What a leading byte promises, by its number. -/
theorem lead_number (fits : n < 256) :
    LeadByte.of (UInt8.ofNat n) =
      if n < 128 then .ascii
      else if n < 194 then .never
      else if n < 224 then .two
      else if n = 224 then .three 0xA0 0xBF
      else if n = 237 then .three 0x80 0x9F
      else if n < 240 then .three 0x80 0xBF
      else if n = 240 then .four 0x90 0xBF
      else if n < 244 then .four 0x80 0xBF
      else if n = 244 then .four 0x80 0x8F
      else .never := by
  unfold LeadByte.of
  simp only [UInt8.lt_iff_toNat_lt, ← UInt8.toNat_inj, byte_number fits, UInt8.reduceToNat]

/-- A byte that lies between two others, by its number. -/
theorem between_number (low high : UInt8) (fits : n < 256) :
    (low ≤ UInt8.ofNat n && UInt8.ofNat n ≤ high) = true ↔ low.toNat ≤ n ∧ n ≤ high.toNat := by
  simp only [Bool.and_eq_true, decide_eq_true_eq, UInt8.le_iff_toNat_le, byte_number fits]

/-- The byte that carries six bits continues a sequence. -/
theorem tail_continues (bits : n < 64) : isContinuation (UInt8.ofNat (n + 128)) = true := by
  unfold isContinuation
  rw [between_number _ _ (by omega)]
  simp only [UInt8.reduceToNat]
  omega

private theorem tail_payload (bits : n < 64) : payload (UInt8.ofNat (n + 128)) = n := by
  unfold payload
  rw [byte_number (by omega)]
  omega

/-! ## Sequences by their length -/

private theorem one_decodes (ascii : v < 128) (index : Nat) (rest : Bytes) :
    decodeFrom index (UInt8.ofNat v :: rest) =
      (decodeFrom (index + 1) rest).map (Char.ofNat v :: ·) := by
  have lead : LeadByte.of (UInt8.ofNat v) = .ascii := by
    rw [lead_number (by omega), if_pos ascii]
  rw [decodeFrom.eq_def]
  simp only [lead, byte_number (show v < 256 by omega)]

private theorem two_decode (least : 128 ≤ v) (most : v < 2048) (index : Nat) (rest : Bytes) :
    decodeFrom index (UInt8.ofNat (v / 64 % 32 + 192) :: UInt8.ofNat (v % 64 + 128) :: rest) =
      (decodeFrom (index + 2) rest).map (Char.ofNat v :: ·) := by
  have lead : LeadByte.of (UInt8.ofNat (v / 64 % 32 + 192)) = .two := by
    rw [lead_number (by omega), if_neg (by omega), if_neg (by omega), if_pos (by omega)]
  have whole : (v / 64 % 32 + 192) % 32 * 64 + v % 64 = v := by omega
  rw [decodeFrom.eq_def]
  simp only [lead, byte_number (show v / 64 % 32 + 192 < 256 by omega),
    tail_continues (Nat.mod_lt v (by decide : 64 > 0)),
    tail_payload (Nat.mod_lt v (by decide : 64 > 0)), ↓reduceIte, whole]

/-- The second byte of three excludes overlong forms and surrogates. -/
theorem three_decode (least : 2048 ≤ v) (most : v < 65536) (scalar : v < 55296 ∨ 57343 < v)
    (index : Nat) (rest : Bytes) :
    decodeFrom index (UInt8.ofNat (v / 4096 % 16 + 224) :: UInt8.ofNat (v / 64 % 64 + 128) ::
        UInt8.ofNat (v % 64 + 128) :: rest) =
      (decodeFrom (index + 3) rest).map (Char.ofNat v :: ·) := by
  obtain ⟨low, high, lead, inside⟩ : ∃ low high,
      LeadByte.of (UInt8.ofNat (v / 4096 % 16 + 224)) = .three low high ∧
      (low ≤ UInt8.ofNat (v / 64 % 64 + 128) && UInt8.ofNat (v / 64 % 64 + 128) ≤ high) = true := by
    rw [lead_number (by omega), if_neg (by omega), if_neg (by omega), if_neg (by omega)]
    by_cases overlong : v / 4096 % 16 + 224 = 224
    · rw [if_pos overlong]
      refine ⟨_, _, rfl, (between_number _ _ (by omega)).mpr ?_⟩
      simp only [UInt8.reduceToNat]
      omega
    rw [if_neg overlong]
    by_cases surrogate : v / 4096 % 16 + 224 = 237
    · rw [if_pos surrogate]
      refine ⟨_, _, rfl, (between_number _ _ (by omega)).mpr ?_⟩
      simp only [UInt8.reduceToNat]
      omega
    · rw [if_neg surrogate, if_pos (by omega)]
      refine ⟨_, _, rfl, (between_number _ _ (by omega)).mpr ?_⟩
      simp only [UInt8.reduceToNat]
      omega
  have whole : ((v / 4096 % 16 + 224) % 16 * 64 + v / 64 % 64) * 64 + v % 64 = v := by omega
  rw [decodeFrom.eq_def]
  simp only [lead, byte_number (show v / 4096 % 16 + 224 < 256 by omega), inside,
    tail_continues (Nat.mod_lt v (by decide : 64 > 0)),
    tail_payload (Nat.mod_lt (v / 64) (by decide : 64 > 0)),
    tail_payload (Nat.mod_lt v (by decide : 64 > 0)), Bool.not_true, Bool.false_eq_true,
    ↓reduceIte, whole]

/-- The second byte of four excludes overlong forms and numbers past the last character. -/
theorem four_decode (least : 65536 ≤ v) (most : v < 1114112) (index : Nat) (rest : Bytes) :
    decodeFrom index (UInt8.ofNat (v / 262144 % 8 + 240) :: UInt8.ofNat (v / 4096 % 64 + 128) ::
        UInt8.ofNat (v / 64 % 64 + 128) :: UInt8.ofNat (v % 64 + 128) :: rest) =
      (decodeFrom (index + 4) rest).map (Char.ofNat v :: ·) := by
  obtain ⟨low, high, lead, inside⟩ : ∃ low high,
      LeadByte.of (UInt8.ofNat (v / 262144 % 8 + 240)) = .four low high ∧
      (low ≤ UInt8.ofNat (v / 4096 % 64 + 128) &&
        UInt8.ofNat (v / 4096 % 64 + 128) ≤ high) = true := by
    rw [lead_number (by omega), if_neg (by omega), if_neg (by omega), if_neg (by omega),
      if_neg (by omega), if_neg (by omega), if_neg (by omega)]
    by_cases overlong : v / 262144 % 8 + 240 = 240
    · rw [if_pos overlong]
      refine ⟨_, _, rfl, (between_number _ _ (by omega)).mpr ?_⟩
      simp only [UInt8.reduceToNat]
      omega
    rw [if_neg overlong]
    by_cases inner : v / 262144 % 8 + 240 < 244
    · rw [if_pos inner]
      refine ⟨_, _, rfl, (between_number _ _ (by omega)).mpr ?_⟩
      simp only [UInt8.reduceToNat]
      omega
    · rw [if_neg inner, if_pos (by omega)]
      refine ⟨_, _, rfl, (between_number _ _ (by omega)).mpr ?_⟩
      simp only [UInt8.reduceToNat]
      omega
  have whole : (((v / 262144 % 8 + 240) % 8 * 64 + v / 4096 % 64) * 64 + v / 64 % 64) * 64 +
      v % 64 = v := by omega
  rw [decodeFrom.eq_def]
  simp only [lead, byte_number (show v / 262144 % 8 + 240 < 256 by omega), inside,
    tail_continues (Nat.mod_lt v (by decide : 64 > 0)),
    tail_continues (Nat.mod_lt (v / 64) (by decide : 64 > 0)),
    tail_payload (Nat.mod_lt (v / 4096) (by decide : 64 > 0)),
    tail_payload (Nat.mod_lt (v / 64) (by decide : 64 > 0)),
    tail_payload (Nat.mod_lt v (by decide : 64 > 0)), Bool.not_true, Bool.false_eq_true,
    ↓reduceIte, whole]

/-! ## Characters -/

/-- The numbers of characters leave out the surrogates. -/
theorem char_number (c : Char) :
    c.val.toNat < 55296 ∨ 57343 < c.val.toNat ∧ c.val.toNat < 1114112 := c.valid

/-- The bytes of a character are read as the character, and reading goes on behind
them. -/
theorem char_decodes (index : Nat) (c : Char) (rest : Bytes) :
    decodeFrom index (String.utf8EncodeChar c ++ rest) =
      (decodeFrom (index + (String.utf8EncodeChar c).length) rest).map (c :: ·) := by
  have scalar := char_number c
  have same : Char.ofNat c.val.toNat = c := Char.ofNat_toNat c
  unfold String.utf8EncodeChar
  dsimp only
  split
  · have read := one_decodes (v := c.val.toNat) (by omega) index rest
    rwa [same] at read
  split
  · have read := two_decode (v := c.val.toNat) (by omega) (by omega) index rest
    rwa [same] at read
  split
  · have read := three_decode (v := c.val.toNat) (by omega) (by omega) (by omega) index rest
    rwa [same] at read
  · have read := four_decode (v := c.val.toNat) (by omega) (by omega) index rest
    rwa [same] at read

/-- Text is read back from its UTF-8 form. -/
theorem text_decodes (text : Text) : ofUtf8 (toUtf8 text) = .ok text := by
  suffices everywhere : ∀ index, decodeFrom index (toUtf8 text) = .ok text from everywhere 0
  induction text with
  | nil =>
    intro index
    rfl
  | cons c text ih =>
    intro index
    have front : toUtf8 (c :: text) = String.utf8EncodeChar c ++ toUtf8 text := by
      simp [toUtf8]
    rw [front, char_decodes, ih]
    rfl

/-- A byte of the ASCII range is the number of its character. -/
theorem ascii_number (member : b ∈ String.utf8EncodeChar c) (ascii : b.toNat < 128) :
    c.val.toNat = b.toNat := by
  have scalar := char_number c
  unfold String.utf8EncodeChar at member
  dsimp only at member
  split at member
  · rw [List.mem_singleton.mp member, byte_number (by omega)]
  exfalso
  split at member
  · simp only [List.mem_cons, List.not_mem_nil, or_false] at member
    rcases member with rfl | rfl <;> rw [byte_number (by omega)] at ascii <;> omega
  split at member
  · simp only [List.mem_cons, List.not_mem_nil, or_false] at member
    rcases member with rfl | rfl | rfl <;> rw [byte_number (by omega)] at ascii <;> omega
  · simp only [List.mem_cons, List.not_mem_nil, or_false] at member
    rcases member with rfl | rfl | rfl | rfl <;> rw [byte_number (by omega)] at ascii <;> omega

/-- A byte of the ASCII range stands for the character of its number. -/
theorem ascii_inside (member : b ∈ toUtf8 text) (ascii : b.toNat < 128) :
    Char.ofNat b.toNat ∈ text := by
  obtain ⟨c, inside, here⟩ := List.mem_flatMap.mp member
  have same : Char.ofNat c.val.toNat = c := Char.ofNat_toNat c
  rwa [← ascii_number here ascii, same]

end SqlWire.Utf8Text
