import SqlWire.Text.Blank
import SqlWire.Text.Escape
import SqlWire.Text.Folding
import SqlWire.Text.Shown

/-! Bracketed literals, the text form of arrays and tuples: lists in square
brackets, groups in parentheses, quoted tokens, and bare tokens that run up to
the next comma or closing bracket. A literal is read into a tree, which the
declared type of a column then interprets. -/
namespace SqlWire

/-- A node of a bracketed literal. -/
inductive Literal where
  /-- An unquoted token, trimmed. -/
  | bare (token : Text)
  /-- A quoted token, with its escapes undone. -/
  | quoted (token : Text)
  /-- `[ ... ]` -/
  | list (items : List Literal)
  /-- `( ... )` -/
  | group (items : List Literal)
deriving Repr

namespace Literal

/-- The null marker of a literal: the bare word `null` in any case, or `\N`. -/
def isNull : Literal → Bool
  | .bare token => Text.sameFolded token "null".toList || token == ['\\', 'N']
  | _ => false

/-- Why a text is no literal. -/
inductive Fault where
  /-- Text follows the literal, from this character on. -/
  | trailing (position : Nat)
  | unexpectedEnd
  /-- A character stands where a comma or the closing bracket is needed. -/
  | expectedSeparator (close found : Char)
  | unclosed (close : Char)
  | danglingEscape
  | unterminatedQuote
deriving DecidableEq, Repr

def Fault.message : Fault → String
  | .trailing position => s!"unexpected trailing content at {position}"
  | .unexpectedEnd => "unexpected end of literal"
  | .expectedSeparator close found => s!"expected ',' or '{close}', found '{found}'"
  | .unclosed close => s!"missing closing '{close}'"
  | .danglingEscape => "dangling escape"
  | .unterminatedQuote => "unterminated quoted element"

/-- A character that ends a bare token. -/
def endsBare (c : Char) : Bool := c = ',' || c = ']' || c = ')'

/-- The body of a quoted token behind its opening quote, and the text behind the
closing one. A doubled quote is one quote and does not close. -/
def readQuoted (quote : Char) : Text → Except Fault (Text × Text)
  | [] => .error .unterminatedQuote
  | [c] =>
    if c = '\\' then .error .danglingEscape
    else if c = quote then .ok ([], [])
    else .error .unterminatedQuote
  | c :: d :: rest =>
    if c = '\\' then
      (readQuoted quote rest).map fun (token, after) => (Text.unescapeChar d :: token, after)
    else if c = quote then
      if d = quote then
        (readQuoted quote rest).map fun (token, after) => (quote :: token, after)
      else .ok ([], d :: rest)
    else (readQuoted quote (d :: rest)).map fun (token, after) => (c :: token, after)

/-- One item or more of a sequence, at most as many as `within` has characters, up
to its closing bracket, and the text behind the bracket. -/
def readMore (item : Text → Except Fault (Literal × Text)) (close : Char) :
    (within text : Text) → Except Fault (List Literal × Text)
  | [], _ => .error .unexpectedEnd
  | _ :: within, text => do
    let (first, after) ← item text
    match Text.trimStart after with
    | [] => .error (.unclosed close)
    | c :: rest =>
      if c = ',' then
        let (others, behind) ← readMore item close within rest
        .ok (first :: others, behind)
      else if c = close then .ok ([first], rest)
      else .error (.expectedSeparator close c)

/-- The items of a sequence behind its opening bracket. Only blanks may stand in
an empty one. A comma stands behind every item but the last. -/
def readItems (item : Text → Except Fault (Literal × Text)) (close : Char) (text : Text) :
    Except Fault (List Literal × Text) :=
  match Text.trimStart text with
  | [] => .error .unexpectedEnd
  | c :: rest => if c = close then .ok ([], rest) else readMore item close (c :: rest) (c :: rest)

/-- A node, blanks before it skipped, and the text behind it. Lists and groups
nest less than `depth` deep. -/
def readNode : Nat → Text → Except Fault (Literal × Text)
  | 0, _ => .error .unexpectedEnd
  | depth + 1, text =>
    match Text.trimStart text with
    | [] => .error .unexpectedEnd
    | c :: rest =>
      if c = '[' then
        (readItems (readNode depth) ']' rest).map fun (items, after) => (.list items, after)
      else if c = '(' then
        (readItems (readNode depth) ')' rest).map fun (items, after) => (.group items, after)
      else if c = '\'' || c = '"' then
        (readQuoted c rest).map fun (token, after) => (.quoted token, after)
      else
        let (token, after) := (c :: rest).span fun c => !endsBare c
        .ok (.bare (Text.trim token), after)

/-- The literal a whole text writes, blanks around it allowed. Every bracket
takes up a character, so the length of the text bounds the nesting. -/
def read (text : Text) : Except Fault Literal := do
  let text := Text.trim text
  let (literal, after) ← readNode (text.length + 1) text
  match Text.trimStart after with
  | [] => .ok literal
  | rest => .error (.trailing (text.length - rest.length))

mutual

/-- The tree as shown in a message, before a text. -/
def shownOnto (behind : Text) : Literal → Text
  | .bare token => "Bare(".toList ++ Text.showQuoted token ++ ')' :: behind
  | .quoted token => "Quoted(".toList ++ Text.showQuoted token ++ ')' :: behind
  | .list items => "List([".toList ++ allShownOnto (']' :: ')' :: behind) items
  | .group items => "Group([".toList ++ allShownOnto (']' :: ')' :: behind) items

/-- The trees of a sequence as shown in a message, before a text. -/
def allShownOnto (behind : Text) : List Literal → Text
  | [] => behind
  | [item] => item.shownOnto behind
  | item :: next :: items => item.shownOnto (',' :: ' ' :: allShownOnto behind (next :: items))

end

/-- The tree as shown in a message. -/
def shown (literal : Literal) : Text := literal.shownOnto []

end Literal

end SqlWire
