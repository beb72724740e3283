import SqlWire.Text.Escape
import SqlWire.Value.Literal
import SqlWire.Proofs.Lexis

/-! A quoted literal denotes its text to each of its readers: to the one that is
given what stands between the quotes, to the one that looks for the closing quote
itself, and to the lexis, for which it is a single string. -/
namespace SqlWire.QuotedText
open Text

/-- How one character stands inside quotes. -/
def quotedChar (c : Char) : Text :=
  if c = '\x00' then ['\\', '0'] else if c = '\\' then ['\\', '\\']
  else if c = '\'' then ['\\', '\''] else [c]

private theorem quote_body_cons (c : Char) (text : Text) :
    quoteBody (c :: text) = quotedChar c ++ quoteBody text := by
  simp only [quoteBody, quotedChar]
  split
  · rfl
  split
  · rfl
  split <;> rfl

/-- A character stands for itself, or is escaped by a letter that denotes it. -/
theorem quoted_char_cases (c : Char) :
    (∃ d, quotedChar c = ['\\', d] ∧ unescapeChar d = c) ∨
      (quotedChar c = [c] ∧ c ≠ '\\' ∧ c ≠ '\'') := by
  unfold quotedChar
  split
  next zero => exact .inl ⟨'0', rfl, by rw [zero]; rfl⟩
  split
  next escape => exact .inl ⟨'\\', rfl, by rw [escape]; rfl⟩
  split
  next quote => exact .inl ⟨'\'', rfl, by rw [quote]; rfl⟩
  next unescaped unquoted => exact .inr ⟨rfl, unescaped, unquoted⟩

/-- What stands between the quotes of a literal denotes its text. -/
theorem unquote_quote_body (text : Text) : unquote (quoteBody text) = text := by
  induction text with
  | nil => rfl
  | cons c text ih =>
    rw [quote_body_cons]
    rcases quoted_char_cases c with ⟨d, escaped, denotes⟩ | ⟨plain, unescaped, unquoted⟩
    · simp [escaped, unquote, ih, denotes]
    · rw [plain, List.singleton_append]
      cases body : quoteBody text <;> simp_all [unquote]

/-- The body of a literal is read up to its closing quote. -/
theorem read_quoted_body (text : Text) (ends : rest.head? ≠ some '\'') :
    Literal.readQuoted '\'' (quoteBody text ++ '\'' :: rest) = .ok (text, rest) := by
  induction text with
  | nil =>
    cases rest with
    | nil => simp [quoteBody, Literal.readQuoted]
    | cons c rest =>
      have other : c ≠ '\'' := by simpa using ends
      simp [quoteBody, Literal.readQuoted, other]
  | cons c text ih =>
    rw [quote_body_cons]
    rcases quoted_char_cases c with ⟨d, escaped, denotes⟩ | ⟨plain, unescaped, unquoted⟩
    · simp [escaped, Literal.readQuoted, ih, denotes, Except.map]
    · rw [plain, List.singleton_append, List.cons_append]
      cases body : quoteBody text <;>
        simp_all [Literal.readQuoted, Except.map]

/-- Nothing between the quotes of a literal closes it. -/
theorem quote_body_inside (text : Text) : Lexis.StringInside (quoteBody text) := by
  induction text with
  | nil => exact .nil
  | cons c text ih =>
    rw [quote_body_cons]
    rcases quoted_char_cases c with ⟨d, escaped, -⟩ | ⟨plain, unescaped, unquoted⟩
    · rw [escaped]
      exact .escaped ih
    · rw [plain]
      exact .plain unescaped unquoted ih

/-- A text without quotes, backslashes and NUL is quoted as it is. -/
theorem quote_body_plain (plain : ∀ c ∈ text, c ≠ '\x00' ∧ c ≠ '\\' ∧ c ≠ '\'') :
    quoteBody text = text := by
  induction text with
  | nil => rfl
  | cons c text ih =>
    obtain ⟨zero, escape, quote⟩ := plain c List.mem_cons_self
    rw [quote_body_cons, ih fun d member => plain d (List.mem_cons_of_mem _ member)]
    simp [quotedChar, zero, escape, quote]

end SqlWire.QuotedText
