import SqlWire.Value.Basic

/-! JSON text of values. Members of an object are sorted by name, controls and
the two delimiters are escaped, and numbers keep the text they were given. -/
namespace SqlWire

/-- A JSON document. -/
inductive Json where
  | null
  | bool (value : Bool)
  /-- A number, by its text. -/
  | number (numeral : Text)
  | string (value : Text)
  | array (items : List Json)
  | object (members : List (Text × Json))

namespace Json

/-- A character inside a JSON string. -/
def escapeChar (c : Char) : Text :=
  if c = '"' then ['\\', '"']
  else if c = '\\' then ['\\', '\\']
  else if c = '\x08' then ['\\', 'b']
  else if c = '\x0c' then ['\\', 'f']
  else if c = '\n' then ['\\', 'n']
  else if c = '\r' then ['\\', 'r']
  else if c = '\t' then ['\\', 't']
  else if c.toNat < 0x20 then '\\' :: 'u' :: Numeral.hex 4 c.toNat
  else [c]

/-- A JSON string with its quotes. -/
def quote (text : Text) : Text := '"' :: text.flatMap escapeChar ++ ['"']

/-- Put a member into a list sorted by name. A member of the same name is
replaced. -/
def insertMember (name : Text) (value : Json) : List (Text × Json) → List (Text × Json)
  | [] => [(name, value)]
  | (other, kept) :: members =>
    if name = other then (name, value) :: members
    else if name < other then (name, value) :: (other, kept) :: members
    else (other, kept) :: insertMember name value members

/-- An object of these members. Of members with one name the last counts. -/
def ofMembers (members : List (Text × Json)) : Json :=
  .object (members.foldl (fun sorted (name, value) => insertMember name value sorted) [])

mutual

/-- The document on one line, without blanks. -/
def compact : Json → Text
  | .null => "null".toList
  | .bool value => Value.boolText value
  | .number numeral => numeral
  | .string value => quote value
  | .array items => '[' :: Text.joinWith [','] (compactItems items) ++ [']']
  | .object members => '\x7b' :: Text.joinWith [','] (compactMembers members) ++ ['\x7d']

def compactItems : List Json → List Text
  | [] => []
  | item :: items => item.compact :: compactItems items

def compactMembers : List (Text × Json) → List Text
  | [] => []
  | (name, value) :: members => (quote name ++ ':' :: value.compact) :: compactMembers members

end

/-- A line break and an indentation of two spaces a level. -/
def newLine (level : Nat) : Text := '\n' :: Text.repeated (2 * level) ' '

/-- The parts of an array or object, one a line, between its brackets. -/
def block (level : Nat) (opening closing : Char) (parts : List Text) : Text :=
  match parts with
  | [] => [opening, closing]
  | parts =>
    opening :: newLine (level + 1) ++ Text.joinWith (',' :: newLine (level + 1)) parts ++
      newLine level ++ [closing]

mutual

/-- The document with one item or member a line, inside `level` others. -/
def pretty (level : Nat) : Json → Text
  | .null => "null".toList
  | .bool value => Value.boolText value
  | .number numeral => numeral
  | .string value => quote value
  | .array items => block level '[' ']' (prettyItems (level + 1) items)
  | .object members => block level '\x7b' '\x7d' (prettyMembers (level + 1) members)

def prettyItems (level : Nat) : List Json → List Text
  | [] => []
  | item :: items => item.pretty level :: prettyItems level items

def prettyMembers (level : Nat) : List (Text × Json) → List Text
  | [] => []
  | (name, value) :: members =>
    (quote name ++ ':' :: ' ' :: value.pretty level) :: prettyMembers level members

end

end Json

namespace Value

/-- A floating-point number as JSON: a number, or its word when it is not
finite. -/
def floatJson (value : Float) : Json :=
  match FloatText.json? value with
  | some numeral => .number numeral
  | none => .string (FloatText.double value)

mutual

/-- The JSON form of a value. Exact decimals, dates and bytes are strings of what
they are displayed as, and a JSON cell is a string of the text it came as. A value
that cannot be displayed has no JSON form. -/
def toJson? : Value → Option Json
  | .null => some .null
  | .bool value => some (.bool value)
  | .smallInt value => some (.number (Numeral.ofInt value.toInt))
  | .int value => some (.number (Numeral.ofInt value.toInt))
  | .bigInt value => some (.number (Numeral.ofInt value.toInt))
  | .real value => some (floatJson value.toFloat)
  | .double value => some (floatJson value)
  | .array items => (toJsons? items).map .array
  | .tuple items => (toJsons? items).map .array
  | value => value.display?.map .string

/-- The JSON forms of a list of values. -/
def toJsons? : List Value → Option (List Json)
  | [] => some []
  | item :: items => do
    let form ← item.toJson?
    let forms ← toJsons? items
    return form :: forms

end

end Value

end SqlWire
