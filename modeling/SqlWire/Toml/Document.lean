import SqlWire.Toml.Scalar

/-! Reading a TOML document. Values nest in arrays and inline tables; a document
is a list of lines, each empty, a header, or an entry. -/
namespace SqlWire.Toml

/-- The most parts of a key, and the most levels of arrays and inline tables. -/
def maxDepth : Nat := 79

/-- Drop a comment, if one starts here. It may hold the characters that a string
may hold as they are. -/
def skipComment : Text → Text
  | '#' :: rest => rest.dropWhile isPlain
  | text => text

/-- What follows the end of a line; the end of the text ends a line too. -/
def lineEnd? : Text → Option Text
  | [] => some []
  | text => newLine? text

/-- What follows the rest of a line that holds nothing more. -/
def afterLine? (text : Text) : Option Text := lineEnd? (skipComment (skipBlanks text))

/-- Drop all blanks, line breaks and comments. `comment` is set while the text is
in a comment. -/
def skipSpace (comment : Bool) : Text → Option Text
  | [] => if comment then none else some []
  | '\n' :: rest => skipSpace false rest
  | '\r' :: '\n' :: rest => skipSpace false rest
  | c :: rest =>
    if comment then if isPlain c then skipSpace true rest else none
    else if isBlank c then skipSpace false rest
    else if c = '#' then skipSpace true rest
    else if c = '\r' then none
    else some (c :: rest)

/-- Characters of a key without quotes. -/
def isKeyChar (c : Char) : Bool :=
  c.isAlphanum || c = '_' || c = '-'

/-- One part of a key. -/
def keyPart? : Text → Option (Text × Text)
  | '"' :: rest => basicString? rest
  | '\'' :: rest => literalString? rest
  | text =>
    let (part, rest) := text.span isKeyChar
    if part.isEmpty then none else some (part, rest)

/-- The parts of a key, `most` at most, with blanks around each. -/
def keyParts? : (most : Nat) → Text → Option (List Text × Text)
  | 0, _ => none
  | most + 1, text => do
    let (part, rest) ← keyPart? (skipBlanks text)
    match skipBlanks rest with
    | '.' :: rest =>
      let (parts, rest) ← keyParts? most rest
      some (part :: parts, rest)
    | rest => some ([part], rest)

/-- A key: the path to its last part, and that part. -/
def key? (text : Text) : Option ((List Text × Text) × Text) := do
  let (parts, rest) ← keyParts? maxDepth text
  some ((parts.dropLast, parts.getLastD []), rest)

/-- A key, an equals sign and a value. -/
def keyValue? (value : Text → Option (Toml × Text)) (text : Text) : Option (Entry × Text) := do
  let ((path, key), rest) ← key? text
  let (value, rest) ← value (skipBlanks (← mark? '=' rest))
  some (⟨path, key, value⟩, rest)

/-- The values of an array behind its opening bracket, at most as many as `within`
has characters. A comma may stand behind the last one. -/
def items? (value : Text → Option (Toml × Text)) :
    (within text : Text) → Option (List Toml × Text)
  | [], _ => none
  | _ :: within, text => do
    match ← skipSpace false text with
    | ']' :: rest => some ([], rest)
    | text =>
      let (item, rest) ← value text
      match ← skipSpace false rest with
      | ']' :: rest => some ([item], rest)
      | ',' :: rest =>
        let (items, rest) ← items? value within rest
        some (item :: items, rest)
      | _ => none

/-- The entries of an inline table, at most as many as `within` has characters, up
to its closing brace. -/
def entries? (value : Text → Option (Toml × Text)) :
    (within text : Text) → Option (List Entry × Text)
  | [], _ => none
  | _ :: within, text => do
    let (entry, rest) ← keyValue? value text
    match skipBlanks rest with
    | '\x7d' :: rest => some ([entry], rest)
    | ',' :: rest =>
      let (entries, rest) ← entries? value within rest
      some (entry :: entries, rest)
    | _ => none

/-- An inline table behind its opening brace. -/
def inlineTable? (value : Text → Option (Toml × Text)) (text : Text) : Option (Toml × Text) := do
  let (entries, rest) ←
    match skipBlanks text with
    | '\x7d' :: rest => some ([], rest)
    | text => entries? value text text
  some (.table .inlined (← fill entries []), rest)

/-- A value of at most `depth` levels. -/
def value? : (depth : Nat) → Text → Option (Toml × Text)
  | 0, text => scalar? text
  | depth + 1, text =>
    match text with
    | '[' :: rest =>
      (items? (value? depth) rest rest).map fun (items, rest) => (.array items, rest)
    | '\x7b' :: rest => inlineTable? (value? depth) rest
    | text => scalar? text

/-- A line of a document. -/
inductive Line where
  | blank
  | header (header : Header)
  | entry (entry : Entry)

/-- A header, between one pair of brackets or two. -/
def header? : Text → Option (Header × Text)
  | '[' :: '[' :: rest => do
    let ((path, key), rest) ← key? rest
    some (⟨path, key, true⟩, ← mark? ']' (← mark? ']' rest))
  | '[' :: rest => do
    let ((path, key), rest) ← key? rest
    some (⟨path, key, false⟩, ← mark? ']' rest)
  | _ => none

/-- The line a text starts with. -/
def line? (text : Text) : Option (Line × Text) :=
  match afterLine? text with
  | some rest => some (.blank, rest)
  | none => do
    let (line, rest) ←
      match skipBlanks text with
      | '[' :: rest => (header? ('[' :: rest)).map fun (header, rest) => (Line.header header, rest)
      | text => (keyValue? (value? maxDepth) text).map fun (entry, rest) => (.entry entry, rest)
    some (line, ← afterLine? rest)

/-- The lines of a text, at most as many as `within` has characters. -/
def lines? : (within text : Text) → Option (List Line)
  | _, [] => some []
  | [], _ => none
  | _ :: within, text => do
    let (line, rest) ← line? text
    (lines? within rest).map (line :: ·)

/-- Gather the entries below their headers: those before the first header, and
the sections. -/
def sections : List Line → List Entry × List Section
  | [] => ([], [])
  | .blank :: lines => sections lines
  | .entry entry :: lines =>
    let (entries, parts) := sections lines
    (entry :: entries, parts)
  | .header header :: lines =>
    let (entries, parts) := sections lines
    ([], ⟨header, entries⟩ :: parts)

/-- The members of a document. A byte order mark before it is dropped. -/
def read? (text : Text) : Option Members := do
  let text := match text with
    | '\ufeff' :: rest => rest
    | text => text
  let (entries, parts) := sections (← lines? text text)
  assemble entries parts

end SqlWire.Toml
