import SqlWire.Text.Basic

/-! White space. Three sets are in use: the Unicode property White_Space for
trimming and skipping, the five ASCII blanks that may follow a keyword, and the
four blanks of a type name. -/
namespace SqlWire.Text

/-- The Unicode property White_Space: twenty-five characters. -/
def isBlank (c : Char) : Bool :=
  let n := c.toNat
  (0x09 ≤ n && n ≤ 0x0D) || n = 0x20 || n = 0x85 || n = 0xA0 || n = 0x1680 ||
    (0x2000 ≤ n && n ≤ 0x200A) || n = 0x2028 || n = 0x2029 || n = 0x202F ||
    n = 0x205F || n = 0x3000

/-- Space, tab, line feed, form feed and carriage return. -/
def isAsciiBlank (c : Char) : Bool :=
  c = ' ' || c = '\t' || c = '\n' || c = '\x0c' || c = '\r'

/-- Space, tab, line feed and carriage return. -/
def isLayout (c : Char) : Bool :=
  c = ' ' || c = '\t' || c = '\n' || c = '\r'

/-- The text without its leading blanks. -/
def trimStart (text : Text) : Text := text.dropWhile isBlank

/-- The text without its trailing blanks. -/
def trimEnd (text : Text) : Text := (text.reverse.dropWhile isBlank).reverse

/-- The text without the blanks around it. -/
def trim (text : Text) : Text := trimEnd (trimStart text)

/-- Nothing but blanks. -/
def allBlank (text : Text) : Bool := text.all isBlank

theorem trimStart_length_le (text : Text) : (trimStart text).length ≤ text.length :=
  (List.dropWhile_suffix isBlank).length_le

/-- A text that no blank begins is its own beginning. -/
theorem trimStart_eq_self {text : Text} (first : ∀ c ∈ text.head?, isBlank c = false) :
    trimStart text = text := by
  cases text with
  | nil => rfl
  | cons c text => simp_all [trimStart]

/-- A text is blanks and what is left without them, which no blank begins. -/
theorem trimStart_parts (text : Text) : ∃ front, (∀ c ∈ front, isBlank c = true) ∧
    text = front ++ trimStart text ∧ ∀ c ∈ (trimStart text).head?, isBlank c = false := by
  refine ⟨text.takeWhile isBlank, List.all_eq_true.mp List.all_takeWhile,
    List.takeWhile_append_dropWhile.symm, fun c first => ?_⟩
  have stops := List.head?_dropWhile_not isBlank text
  rw [trimStart] at first
  rwa [first] at stops

/-- Blanks before a text are left out. -/
theorem trimStart_blanks {front : Text} (blank : ∀ c ∈ front, isBlank c = true) (text : Text) :
    trimStart (front ++ text) = trimStart text :=
  List.dropWhile_append_of_pos blank

/-- A text is what is left without the blanks behind it, and those blanks. -/
theorem trimEnd_parts (text : Text) :
    ∃ back, (∀ c ∈ back, isBlank c = true) ∧ text = trimEnd text ++ back := by
  obtain ⟨front, blank, parts, -⟩ := trimStart_parts text.reverse
  refine ⟨front.reverse, fun c member => blank c (List.mem_reverse.mp member), ?_⟩
  rw [trimEnd, ← trimStart, ← List.reverse_append, ← parts, List.reverse_reverse]

/-- A text that no blank ends is its own end. -/
theorem trimEnd_eq_self {text : Text} (last : ∀ c ∈ text.getLast?, isBlank c = false) :
    trimEnd text = text := by
  have reversed : trimStart text.reverse = text.reverse := trimStart_eq_self (by simpa using last)
  rw [trimStart] at reversed
  rw [trimEnd, reversed, List.reverse_reverse]

theorem trim_eq_self {text : Text} (first : ∀ c ∈ text.head?, isBlank c = false)
    (last : ∀ c ∈ text.getLast?, isBlank c = false) : trim text = text := by
  rw [trim, trimStart_eq_self first, trimEnd_eq_self last]

/-- There is nothing to trim where there are no blanks. -/
theorem trim_eq_self_of_all {text : Text} (solid : ∀ c ∈ text, isBlank c = false) :
    trim text = text :=
  trim_eq_self (fun c member => solid c (List.mem_of_mem_head? member))
    fun c member => solid c (List.mem_of_mem_getLast? member)

end SqlWire.Text
