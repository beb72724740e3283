import SqlWire.Text.Basic

/-! UTF-8: text to bytes, and bytes to text. A refusal says where the valid
part ends and how long the bad sequence is, or that the input ends inside a
sequence. -/
namespace SqlWire

/-- A string of bytes. -/
abbrev Bytes := List UInt8

namespace Text

/-- The UTF-8 form of a text. -/
def toUtf8 (text : Text) : Bytes := text.flatMap String.utf8EncodeChar

/-- Why bytes are no UTF-8. Each cause keeps the index of the first byte of the
bad sequence. -/
inductive Utf8Fault where
  /-- The sequence can never become valid; `length` bytes of it are spoiled. -/
  | invalid (index length : Nat)
  /-- The bytes end inside a sequence that was valid so far. -/
  | incomplete (index : Nat)
deriving DecidableEq, Repr

def Utf8Fault.message : Utf8Fault → String
  | .invalid index length => s!"invalid utf-8 sequence of {length} bytes from index {index}"
  | .incomplete index => s!"incomplete utf-8 byte sequence from index {index}"

/-- What a leading byte promises. -/
inductive LeadByte where
  | ascii
  /-- One more byte follows. -/
  | two
  /-- Two more follow, the first of them between `low` and `high`. -/
  | three (low high : UInt8)
  /-- Three more follow, the first of them between `low` and `high`. -/
  | four (low high : UInt8)
  | never
deriving DecidableEq, Repr

/-- The narrowed ranges of the second byte exclude overlong forms, surrogates
and code points past the last one. -/
def LeadByte.of (b : UInt8) : LeadByte :=
  if b < 0x80 then .ascii
  else if b < 0xC2 then .never
  else if b < 0xE0 then .two
  else if b = 0xE0 then .three 0xA0 0xBF
  else if b = 0xED then .three 0x80 0x9F
  else if b < 0xF0 then .three 0x80 0xBF
  else if b = 0xF0 then .four 0x90 0xBF
  else if b < 0xF4 then .four 0x80 0xBF
  else if b = 0xF4 then .four 0x80 0x8F
  else .never

/-- A byte that continues a sequence. -/
def isContinuation (b : UInt8) : Bool := 0x80 ≤ b && b ≤ 0xBF

/-- The six bits a continuation byte carries. -/
def payload (b : UInt8) : Nat := b.toNat % 64

/-- Decode from byte `index` on. -/
def decodeFrom (index : Nat) : Bytes → Except Utf8Fault Text
  | [] => .ok []
  | b :: rest =>
    match LeadByte.of b with
    | .ascii => (decodeFrom (index + 1) rest).map (Char.ofNat b.toNat :: ·)
    | .never => .error (.invalid index 1)
    | .two =>
      match rest with
      | [] => .error (.incomplete index)
      | c :: rest =>
        if isContinuation c then
          (decodeFrom (index + 2) rest).map
            (Char.ofNat (b.toNat % 32 * 64 + payload c) :: ·)
        else .error (.invalid index 1)
    | .three low high =>
      match rest with
      | [] => .error (.incomplete index)
      | c :: rest =>
        if !(low ≤ c && c ≤ high) then .error (.invalid index 1)
        else
          match rest with
          | [] => .error (.incomplete index)
          | d :: rest =>
            if isContinuation d then
              (decodeFrom (index + 3) rest).map
                (Char.ofNat ((b.toNat % 16 * 64 + payload c) * 64 + payload d) :: ·)
            else .error (.invalid index 2)
    | .four low high =>
      match rest with
      | [] => .error (.incomplete index)
      | c :: rest =>
        if !(low ≤ c && c ≤ high) then .error (.invalid index 1)
        else
          match rest with
          | [] => .error (.incomplete index)
          | d :: rest =>
            if !isContinuation d then .error (.invalid index 2)
            else
              match rest with
              | [] => .error (.incomplete index)
              | e :: rest =>
                if isContinuation e then
                  (decodeFrom (index + 4) rest).map
                    (Char.ofNat
                      (((b.toNat % 8 * 64 + payload c) * 64 + payload d) * 64 + payload e) :: ·)
                else .error (.invalid index 3)

/-- The text whose UTF-8 form the bytes are. -/
def ofUtf8 (bytes : Bytes) : Except Utf8Fault Text := decodeFrom 0 bytes

end Text

end SqlWire
