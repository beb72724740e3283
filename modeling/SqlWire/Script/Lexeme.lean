import SqlWire.Text.Basic

/-! The lexis of SQL text. A text is cut from left to right into quoted
strings, quoted identifiers, comments and single characters; nothing is lost
and nothing else is told apart. Only the last lexeme can be left open. -/
namespace SqlWire

/-- A piece of SQL text that is looked at as a whole. -/
inductive Lexeme where
  /-- A single-quoted string: what follows its opening quote, the closing quote
  included when there is one. -/
  | string (body : Text) (closed : Bool)
  /-- A double-quoted identifier, likewise. -/
  | identifier (body : Text) (closed : Bool)
  /-- A line comment behind its two dashes, without the line break. -/
  | lineComment (body : Text)
  /-- A block comment behind its opening, the closing included when there is
  one. -/
  | blockComment (body : Text)
  /-- Any other character. -/
  | char (c : Char)
deriving DecidableEq, Repr

namespace Lexeme

/-- The lexeme as it stands in the text. -/
def source : Lexeme → Text
  | .string body _ => '\'' :: body
  | .identifier body _ => '"' :: body
  | .lineComment body => '-' :: '-' :: body
  | .blockComment body => '/' :: '*' :: body
  | .char c => [c]

/-- What cleaning leaves of the lexeme: nothing of a line comment, a space of a
block comment, so that its neighbours stay apart, and all of the others. -/
def clean : Lexeme → Text
  | .lineComment _ => []
  | .blockComment _ => [' ']
  | lexeme => lexeme.source

/-- A parameter marker. -/
def isMarker (lexeme : Lexeme) : Bool := lexeme = .char '?'

/-- A statement separator. -/
def isSeparator (lexeme : Lexeme) : Bool := lexeme = .char ';'

/-- A lexeme under way: the part of it that is still to come, whether it ends
in a closing mark, and the lexemes behind it. -/
structure Pending where
  body : Text
  closed : Bool
  next : List Lexeme

/-- The pending lexeme with characters added in front. -/
def Pending.extend (front : Text) (pending : Pending) : Pending :=
  { pending with body := front ++ pending.body }

mutual

/-- The lexemes of a text. -/
def ofText : Text → List Lexeme
  | [] => []
  | c :: rest =>
    if c = '\'' then
      let pending := inString rest
      .string pending.body pending.closed :: pending.next
    else if c = '"' then
      let pending := inIdentifier rest
      .identifier pending.body pending.closed :: pending.next
    else
      match rest with
      | [] => [.char c]
      | d :: after =>
        if c = '-' ∧ d = '-' then
          let pending := inLineComment after
          .lineComment pending.body :: pending.next
        else if c = '/' ∧ d = '*' then
          let pending := inBlockComment after
          .blockComment pending.body :: pending.next
        else .char c :: ofText (d :: after)

/-- Inside a string. A backslash takes the next character along, and a doubled
quote does not close. -/
def inString : Text → Pending
  | [] => ⟨[], false, []⟩
  | [c] => ⟨[c], c = '\'', []⟩
  | c :: d :: rest =>
    if c = '\\' then (inString rest).extend [c, d]
    else if c = '\'' then
      if d = '\'' then (inString rest).extend [c, d] else ⟨[c], true, ofText (d :: rest)⟩
    else (inString (d :: rest)).extend [c]

/-- Inside a quoted identifier. A doubled quote does not close. -/
def inIdentifier : Text → Pending
  | [] => ⟨[], false, []⟩
  | [c] => ⟨[c], c = '"', []⟩
  | c :: d :: rest =>
    if c = '"' then
      if d = '"' then (inIdentifier rest).extend [c, d] else ⟨[c], true, ofText (d :: rest)⟩
    else (inIdentifier (d :: rest)).extend [c]

/-- Inside a line comment, which ends before the next line break. -/
def inLineComment : Text → Pending
  | [] => ⟨[], true, []⟩
  | c :: rest =>
    if c = '\n' then ⟨[], true, .char c :: ofText rest⟩
    else (inLineComment rest).extend [c]

/-- Inside a block comment. One that is never closed runs to the end. -/
def inBlockComment : Text → Pending
  | [] => ⟨[], true, []⟩
  | [c] => ⟨[c], true, []⟩
  | c :: d :: rest =>
    if c = '*' ∧ d = '/' then ⟨[c, d], true, ofText rest⟩
    else (inBlockComment (d :: rest)).extend [c]

end

/-- Quotes and comments hide what would separate or mark outside of them. -/
example : ofText ['\'', ';', '\'', ';', '-', '-', '?', '\n', '/', '*', '?'] =
    [.string [';', '\''] true, .char ';', .lineComment ['?'], .char '\n', .blockComment ['?']] := by
  cbv

end Lexeme

end SqlWire
