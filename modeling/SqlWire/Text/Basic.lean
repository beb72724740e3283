/-! Text is a list of characters, so positions in it are character offsets and
every reader recurses on the data itself. Byte offsets, which error positions
and spans use, are sums of the UTF-8 widths of the characters passed over. -/
namespace SqlWire

/-- A piece of text, one element per character. -/
abbrev Text := List Char

namespace Text

/-- How many bytes the text takes in UTF-8. -/
def byteLength : Text → Nat
  | [] => 0
  | c :: text => c.utf8Size + byteLength text

@[simp] theorem byteLength_nil : byteLength [] = 0 := rfl

@[simp] theorem byteLength_cons (c : Char) (text : Text) :
    byteLength (c :: text) = c.utf8Size + byteLength text := rfl

@[simp] theorem byteLength_append (left right : Text) :
    byteLength (left ++ right) = byteLength left + byteLength right := by
  induction left with
  | nil => simp
  | cons c left ih => simp [ih, Nat.add_assoc]

/-- The text from byte `offset` on, where a character begins there or the text
ends. -/
def fromByte? (offset : Nat) : Text → Option Text
  | [] => if offset = 0 then some [] else none
  | c :: text =>
    if offset = 0 then some (c :: text)
    else if offset < c.utf8Size then none
    else fromByte? (offset - c.utf8Size) text

theorem fromByte?_behind (front rest : Text) :
    fromByte? (byteLength front) (front ++ rest) = some rest := by
  induction front with
  | nil => cases rest <;> rfl
  | cons c front ih =>
    have wide : 0 < c.utf8Size := c.utf8Size_pos
    rw [List.cons_append, fromByte?, byteLength_cons, if_neg (by omega), if_neg (by omega),
      Nat.add_sub_cancel_left, ih]

/-- The characters before the first one that satisfies `stop`, and those
after it. `none` when no character does. -/
def cutAt (stop : Char → Bool) : Text → Option (Text × Text)
  | [] => none
  | c :: rest =>
    if stop c then some ([], rest)
    else (cutAt stop rest).map fun (before, after) => (c :: before, after)

theorem cutAt_eq_none {stop : Char → Bool} {text : Text} (clear : ∀ c ∈ text, stop c = false) :
    cutAt stop text = none := by
  induction text with
  | nil => rfl
  | cons c text ih => simp_all [cutAt]

/-- A text is cut at the first character that stops. -/
theorem cutAt_append {stop : Char → Bool} {front back : Text} {c : Char}
    (clear : ∀ c ∈ front, stop c = false) (stops : stop c = true) :
    cutAt stop (front ++ c :: back) = some (front, back) := by
  induction front with
  | nil => simp [cutAt, stops]
  | cons d front ih => simp_all [cutAt]

/-- Text that is cut nowhere has no character that stops. -/
theorem cutAt_eq_none_iff {stop : Char → Bool} {text : Text} :
    cutAt stop text = none ↔ ∀ c ∈ text, stop c = false := by
  refine ⟨fun uncut => ?_, cutAt_eq_none⟩
  induction text with
  | nil => simp
  | cons c text ih =>
    rw [cutAt] at uncut
    split at uncut
    · cases uncut
    next passes =>
      exact List.forall_mem_cons.mpr
        ⟨eq_false_of_ne_true passes, ih (Option.map_eq_none_iff.mp uncut)⟩

/-- Where a text is cut stands the first character that stops. -/
theorem cutAt_eq_some_iff {stop : Char → Bool} {text front back : Text} :
    cutAt stop text = some (front, back) ↔
      ∃ c, text = front ++ c :: back ∧ stop c = true ∧ ∀ d ∈ front, stop d = false := by
  constructor
  · intro cut
    induction text generalizing front with
    | nil => cases cut
    | cons c text ih =>
      rw [cutAt] at cut
      split at cut
      next stops =>
        cases cut
        exact ⟨c, rfl, stops, by simp⟩
      next passes =>
        obtain ⟨⟨before, after⟩, found, same⟩ := Option.map_eq_some_iff.mp cut
        cases same
        obtain ⟨d, parts, stops, clear⟩ := ih found
        exact ⟨d, by rw [parts]; rfl, stops,
          List.forall_mem_cons.mpr ⟨eq_false_of_ne_true passes, clear⟩⟩
  · intro ⟨c, parts, stops, clear⟩
    rw [parts]
    exact cutAt_append clear stops

/-- The first field up to a separator, and the fields after it. -/
def fieldsFrom (separator : Char) : Text → Text × List Text
  | [] => ([], [])
  | c :: rest =>
    let (first, others) := fieldsFrom separator rest
    if c = separator then ([], first :: others) else (c :: first, others)

/-- The fields between separators. There is always at least one, and it may
be empty. -/
def fields (separator : Char) (text : Text) : List Text :=
  let (first, others) := fieldsFrom separator text
  first :: others

/-- The pieces one after the other with `glue` between neighbours. -/
def joinWith (glue : Text) : List Text → Text
  | [] => []
  | [last] => last
  | piece :: next :: others => piece ++ glue ++ joinWith glue (next :: others)

/-- What follows `lead`, when the text begins with it. -/
def dropLead? : Text → Text → Option Text
  | [], text => some text
  | _ :: _, [] => none
  | l :: lead, c :: text => if l = c then dropLead? lead text else none

/-- The text without its last character, when that character is `last`. -/
def dropLast? (last : Char) (text : Text) : Option Text :=
  if text.getLast? = some last then some text.dropLast else none

theorem dropLead?_iff {lead text rest : Text} :
    dropLead? lead text = some rest ↔ text = lead ++ rest := by
  induction lead generalizing text with
  | nil => simp [dropLead?]
  | cons l lead ih =>
    cases text with
    | nil => simp [dropLead?]
    | cons c text =>
      rw [dropLead?, List.cons_append, List.cons.injEq]
      split
      next same => simp [same, ih]
      next other => simp [Ne.symm other]

theorem dropLast?_iff {last : Char} {text init : Text} :
    dropLast? last text = some init ↔ text = init ++ [last] := by
  rw [dropLast?]
  constructor
  · intro found
    split at found
    next ends =>
      obtain ⟨front, rfl⟩ := List.getLast?_eq_some_iff.mp ends
      rw [List.dropLast_concat] at found
      rw [Option.some.inj found]
    · cases found
  · rintro rfl
    rw [List.getLast?_concat, if_pos rfl, List.dropLast_concat]

/-- `count` copies of one character. -/
def repeated (count : Nat) (c : Char) : Text := List.replicate count c

/-- The most characters that a text can be filled up to, where the width is not
known beforehand. -/
def fillLimit : Nat := 65535

/-- The text moved to the right end of a field of `width` characters. -/
def padLeft (width : Nat) (fill : Char) (text : Text) : Text :=
  repeated (width - text.length) fill ++ text

/-- The text at the left end of a field of `width` characters. -/
def padRight (width : Nat) (fill : Char) (text : Text) : Text :=
  text ++ repeated (width - text.length) fill

end Text

end SqlWire
