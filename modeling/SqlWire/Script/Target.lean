import SqlWire.Text.Alphanumeric
import SqlWire.Text.Blank
import SqlWire.Text.Folding
import SqlWire.Text.Utf8

/-! Finding the table a query reads: the first `FROM` that stands outside
quotes, and the dotted name behind it. The search goes byte by byte, which is
enough to tell words and quotes apart. -/
namespace SqlWire.Target

/-- A character of a word: an ASCII letter or digit, an underscore, a dollar
sign, or any character beyond ASCII. -/
def isWordChar (c : Char) : Bool :=
  c.isAlphanum || c = '_' || c = '$' || 0x80 ≤ c.toNat

/-- Whether a text begins with a word in any case, and the word ends there. -/
def startsWithWord (word text : Text) : Bool :=
  match Text.dropWord? word text with
  | none => false
  | some [] => true
  | some (c :: _) => !isWordChar c

/-- A byte of a word: that of an ASCII letter or digit, of an underscore or a dollar
sign, or any byte beyond ASCII. -/
def isWordByte (b : UInt8) : Bool :=
  (0x30 ≤ b && b ≤ 0x39) || (0x41 ≤ b && b ≤ 0x5A) || (0x61 ≤ b && b ≤ 0x7A) ||
    b = 0x5F || b = 0x24 || 0x80 ≤ b

/-- The byte of a single quote, which begins and ends a string. -/
def stringQuote : UInt8 := 0x27

/-- The byte of a double quote, which begins and ends an identifier. -/
def identifierQuote : UInt8 := 0x22

/-- The byte of a backslash, which takes the next byte along in a string. -/
def escapeByte : UInt8 := 0x5C

/-- The byte of a small letter for that of a capital; all else stays. -/
def lowerByte (b : UInt8) : UInt8 := if 0x41 ≤ b && b ≤ 0x5A then b + 0x20 else b

/-- Whether a run of bytes, its last byte first, is the keyword in any case. A run has
at least one byte. -/
def spells (keyword run : Bytes) : Bool :=
  !run.isEmpty && run.reverse.map lowerByte == keyword.map lowerByte

mutual

/-- The bytes behind the first run of word bytes outside quotes that is the keyword in
any case. `run` is the run read so far, its last byte first. -/
def behindWord? (keyword run : Bytes) : Bytes → Option Bytes
  | [] => if spells keyword run then some [] else none
  | b :: rest =>
    if isWordByte b then behindWord? keyword (b :: run) rest
    else if spells keyword run then some (b :: rest)
    else if b = stringQuote || b = identifierQuote then behindQuoted? keyword b rest
    else behindWord? keyword [] rest

/-- Inside a quote, up to its end: a doubled quote does not end it, and in a string a
byte behind a backslash does not. -/
def behindQuoted? (keyword : Bytes) (quote : UInt8) : Bytes → Option Bytes
  | [] => none
  | [_] => none
  | b :: d :: rest =>
    if b = escapeByte && quote = stringQuote then behindQuoted? keyword quote rest
    else if b = quote then
      if d = quote then behindQuoted? keyword quote rest else behindWord? keyword [] (d :: rest)
    else behindQuoted? keyword quote (d :: rest)

end

/-- The byte offset just behind the first occurrence of the keyword as a whole word
outside quotes, in a text without comments. -/
def findKeyword (keyword text : Text) : Option Nat :=
  let bytes := Text.toUtf8 text
  (behindWord? (Text.toUtf8 keyword) [] bytes).map fun rest => bytes.length - rest.length

/-- The name inside a quoted identifier, behind its opening quote, and the text
behind the identifier. A doubled quote is one quote. -/
def quotedName : Text → Text × Text
  | [] => ([], [])
  | [c] => if c = '"' then ([], []) else ([c], [])
  | c :: d :: rest =>
    if c = '"' then
      if d = '"' then
        let (name, after) := quotedName rest
        ('"' :: name, after)
      else ([], d :: rest)
    else
      let (name, after) := quotedName (d :: rest)
      (c :: name, after)

/-- A character of a name that is not quoted. -/
def isNameChar (c : Char) : Bool := Text.isAlphanumeric c || c = '_' || c = '$'

/-- One name, quoted or not, and the text behind it. The name is empty when none
stands here. -/
def nextName (text : Text) : Text × Text :=
  match text with
  | '"' :: rest => quotedName rest
  | text => text.span isNameChar

/-- The first two parts of the dotted name a text begins with. -/
def dottedName (text : Text) : Option Text × Option Text :=
  let (first, rest) := nextName text
  if first.isEmpty then (none, none)
  else
    match rest with
    | '.' :: rest =>
      let (second, _) := nextName rest
      (some first, if second.isEmpty then none else some second)
    | _ => (some first, none)

/-- Database and table of a query. A name of one part is a table. -/
def ofQuery (clean : Text) : Option Text × Option Text :=
  match (findKeyword "from".toList clean).bind fun offset => Text.fromByte? offset clean with
  | none => (none, none)
  | some rest =>
    match dottedName (Text.trimStart rest) with
    | (some database, some table) => (some database, some table)
    | (some table, none) => (none, some table)
    | (none, _) => (none, none)

end SqlWire.Target
