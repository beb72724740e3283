import SqlWire.Column.Basic
import SqlWire.Text.Alphanumeric
import SqlWire.Text.Blank

/-! Reading type names. Wrappers (`Nullable(Array(Decimal(38, 9)))`) and
suffixes (`array(numeric(38, 9) null) not null`) may be mixed. The alternatives
of a type are tried in order, and one that fails half-way leaves the text to
the next; a text that is no type as a whole is a column of unknown kind. Each
reader gives what it found together with the text it left over. -/
namespace SqlWire.TypeName

/-- Skip layout characters. -/
def skipLayout (text : Text) : Text := text.dropWhile Text.isLayout

/-- What follows a mark that has to stand here, layout before it skipped. -/
def mark? (mark : Char) (text : Text) : Option Text :=
  match skipLayout text with
  | [] => none
  | c :: rest => if c = mark then some rest else none

/-- A number below `2 ^ 32`, layout before it skipped. -/
def number? (text : Text) : Option (Nat × Text) :=
  let start := skipLayout text
  let digits := start.takeWhile Char.isDigit
  if digits.isEmpty || 4294967296 ≤ Numeral.value digits then none
  else some (Numeral.value digits, start.dropWhile Char.isDigit)

/-- A parenthesised argument list whose inside is read by `inside`. -/
def parenthesised? {α : Type} (inside : Text → Option (α × Text)) (text : Text) :
    Option (α × Text) := do
  let (found, rest) ← inside (← mark? '(' text)
  some (found, ← mark? ')' rest)

/-- `p` or `p, s`; a scale that is not there is zero. -/
def decimalArguments? (text : Text) : Option ((Nat × Nat) × Text) := do
  let (precision, rest) ← number? text
  match (mark? ',' rest).bind number? with
  | some (scale, after) => some ((precision, scale), after)
  | none => some ((precision, 0), rest)

/-- `p` or `p,` and a time zone, which may be anything up to the closing
parenthesis. -/
def timestampArguments? (text : Text) : Option (Nat × Text) := do
  let (digits, rest) ← number? text
  match rest with
  | ',' :: zone => some (digits, zone.dropWhile (· != ')'))
  | rest => some (digits, rest)

/-- The precision and scale of a decimal type that names none. -/
def defaultDecimal : Nat × Nat := (38, 0)

/-- `Decimal` or `Numeric`, with or without arguments. -/
def decimal? (text : Text) : Option (Column × Text) := do
  let rest ← Text.dropWord? "decimal".toList text <|> Text.dropWord? "numeric".toList text
  match parenthesised? decimalArguments? rest with
  | some ((precision, scale), after) => some (Column.decimalOf precision scale, after)
  | none => some (Column.decimalOf defaultDecimal.1 defaultDecimal.2, rest)

/-- `DateTime64`, with or without arguments. -/
def timestamp? (text : Text) : Option (Column × Text) := do
  let rest ← Text.dropWord? "datetime64".toList text
  match parenthesised? timestampArguments? rest with
  | some (digits, after) => some (.timestamp {} digits, after)
  | none => some (Column.ofKind .timestamp, rest)

/-- A character of a word. -/
def isWordChar (c : Char) : Bool := Text.isAlphanumeric c || c = '_'

/-- The next word, layout before it skipped. -/
def nextWord? (text : Text) : Option (Text × Text) :=
  let start := skipLayout text
  let word := start.takeWhile isWordChar
  if word.isEmpty then none else some (word, start.dropWhile isWordChar)

/-- A word that begins a null suffix. -/
def beginsSuffix (word : Text) : Bool :=
  Text.sameFolded word "null".toList || Text.sameFolded word "not".toList

/-- Words from here on, at most as many as `within` has characters, ending before
one that begins a null suffix, and the text behind the last of them. -/
def furtherWords : (within text : Text) → List Text × Text
  | [], text => ([], text)
  | _ :: within, text =>
    match nextWord? text with
    | none => ([], text)
    | some (word, rest) =>
      if beginsSuffix word then ([], text)
      else
        let (others, after) := furtherWords within rest
        (word :: others, after)

/-- A scalar type of one or more words. The first word is taken whatever it is. -/
def scalar? (text : Text) : Option (Column × Text) := do
  let (first, rest) ← nextWord? text
  let (others, after) := furtherWords rest rest
  let kind := (Kind.ofWireName? (Text.joinWith [' '] (first :: others))).getD .unknown
  some (Column.ofKind kind, after)

/-- `not null`, layout before it skipped. -/
def notNull? (text : Text) : Option Text := do
  let behindNot ← Text.dropWord? "not".toList (skipLayout text)
  match behindNot with
  | [] => none
  | c :: _ =>
    if Text.isLayout c then Text.dropWord? "null".toList (skipLayout behindNot) else none

/-- The null suffix: `null` allows null, `not null` says nothing new. Gives
whether null is allowed and the text behind the suffix. -/
def nullSuffix (text : Text) : Bool × Text :=
  match notNull? text with
  | some rest => (false, rest)
  | none =>
    match Text.dropWord? "null".toList (skipLayout text) with
    | some rest => (true, rest)
    | none => (false, text)

/-- What follows the name of a wrapper, in parentheses and read by `inside`. -/
def wrapped? {α : Type} (name : Text) (inside : Text → Option (α × Text)) (text : Text) :
    Option (α × Text) := do
  parenthesised? inside (← Text.dropWord? name text)

/-- One item or more, at most as many as `within` has characters, separated by
commas. A comma that no item follows is left over. -/
def list? {α : Type} (item : Text → Option (α × Text)) :
    (within text : Text) → Option (List α × Text)
  | [], _ => none
  | _ :: within, text => do
    let (first, rest) ← item text
    match (mark? ',' rest).bind (list? item within) with
    | some (others, after) => some (first :: others, after)
    | none => some ([first], rest)

/-- A type and the null suffix behind it, with at most `depth` wrappers inside
one another. Before the suffix stands a wrapper, a decimal, a timestamp or a
scalar, whichever is found first. -/
def column? : Nat → Text → Option (Column × Text)
  | 0, _ => none
  | depth + 1, text => do
    let start := skipLayout text
    let (column, rest) ←
      (wrapped? "nullable".toList (column? depth) start).map (fun (c, r) => (c.orNull true, r)) <|>
      (wrapped? "array".toList (column? depth) start).map (fun (c, r) => (Column.arrayOf c, r)) <|>
      (wrapped? "tuple".toList (fun inside => list? (column? depth) inside inside) start).map
        (fun (cs, r) => (Column.tupleOf cs, r)) <|>
      decimal? start <|> timestamp? start <|> scalar? start
    let (nullable, after) := nullSuffix rest
    some (column.orNull nullable, after)

/-- The type a whole text names. Only blanks may be left over. Every wrapper
takes up characters, so the length of the text bounds the nesting. -/
def read? (text : Text) : Option Column :=
  match column? (text.length + 1) text with
  | some (column, rest) => if Text.allBlank rest then some column else none
  | none => none

end SqlWire.TypeName

namespace SqlWire

/-- The column a header declares. A type text that names no type gives a column
of unknown kind, so this never fails. -/
def Column.ofDeclaration (name declared : Text) : Column :=
  ((TypeName.read? declared).getD (Column.ofKind .unknown)).declaredAs name declared

end SqlWire
