import SqlWire.Toml.Document
import SqlWire.Wire.Block

/-! Settings of the command line, read from a TOML document. Every setting has
a default, and a name the settings do not know is refused. A section is a table
or, by position, an array. -/
namespace SqlWire

/-- How decoded rows are printed. -/
inductive OutputFormat where
  | table
  | json
deriving DecidableEq, Repr

structure Settings where
  /-- Plain bytes per block when compressing. -/
  blockSize : Nat := Block.defaultSize
  /-- The largest block accepted when decompressing. -/
  readLimit : Nat := Block.defaultLimit
  format : OutputFormat := .table
  /-- Whether bodies are read as compressed blocks. -/
  compressed : Bool := false
deriving DecidableEq, Repr

namespace Settings

/-- Why settings are refused. -/
inductive Fault where
  /-- The text is no TOML document, or not one of settings. -/
  | malformed
  | zeroBlockSize
  | blockSizeTooLarge
  | zeroReadLimit
deriving DecidableEq, Repr

def Fault.message : Fault → String
  | .malformed => "TOML parse error"
  | .zeroBlockSize => "codec.max_block_size must be positive"
  | .blockSizeTooLarge => s!"codec.max_block_size must not exceed {Block.maxLength}"
  | .zeroReadLimit => "codec.read_max_block_size must be positive"

/-- A size. -/
def readSize? : Toml → Option Nat
  | .integer n => if 0 ≤ n then some n.toNat else none
  | _ => none

/-- A truth value. -/
def readFlag? : Toml → Option Bool
  | .boolean value => some value
  | _ => none

/-- The format of a name. -/
def formatOf? (name : Text) : Option OutputFormat :=
  if name = "table".toList then some .table
  else if name = "json".toList then some .json
  else none

/-- Whether a value holds nothing. -/
def isVoid : Toml → Bool
  | .array items => items.isEmpty
  | .table _ members => members.isEmpty
  | .tables rows => rows.isEmpty
  | _ => false

/-- A format: its name, or a table with the name as only member and nothing in
it. -/
def readFormat? : Toml → Option OutputFormat
  | .string name => formatOf? name
  | .table _ [(name, value)] => if isVoid value then formatOf? name else none
  | _ => none

/-- One setting: its name and how its value is taken over. -/
structure Item where
  name : String
  take : Settings → Toml → Option Settings

/-- The settings of each section, in the order of positions. -/
def layout : List (String × List Item) :=
  [("codec",
    [⟨"max_block_size", fun s v => (readSize? v).map ({ s with blockSize := · })⟩,
     ⟨"read_max_block_size", fun s v => (readSize? v).map ({ s with readLimit := · })⟩]),
   ("output", [⟨"format", fun s v => (readFormat? v).map ({ s with format := · })⟩]),
   ("decode", [⟨"compressed", fun s v => (readFlag? v).map ({ s with compressed := · })⟩])]

/-- Take over members by name. -/
def takeMembers (items : List Item) (settings : Settings) (members : Toml.Members) :
    Option Settings :=
  members.foldlM (fun settings (name, value) => do
    let item ← items.find? (·.name.toList == name)
    item.take settings value) settings

/-- Take over values by position. Further values mean nothing. -/
def takeValues (items : List Item) (settings : Settings) (values : List Toml) :
    Option Settings :=
  (items.zip values).foldlM (fun settings (item, value) => item.take settings value) settings

/-- Take over a section. -/
def takeSection (items : List Item) (settings : Settings) : Toml → Option Settings
  | .table _ members => takeMembers items settings members
  | .array values => takeValues items settings values
  | .tables rows => takeValues items settings (rows.reverse.map (.table .headed ·))
  | _ => none

/-- Take over the sections of a document. -/
def ofDocument? (members : Toml.Members) : Option Settings :=
  members.foldlM (fun settings (name, value) => do
    let (_, items) ← layout.find? (·.1.toList == name)
    takeSection items settings value) {}

/-- Settings within their bounds. -/
def check (settings : Settings) : Except Fault Settings :=
  if settings.blockSize = 0 then .error .zeroBlockSize
  else if Block.maxLength < settings.blockSize then .error .blockSizeTooLarge
  else if settings.readLimit = 0 then .error .zeroReadLimit
  else .ok settings

/-- The settings a text holds. -/
def ofText (text : Text) : Except Fault Settings :=
  match (Toml.read? text).bind ofDocument? with
  | none => .error .malformed
  | some settings => settings.check

end Settings

end SqlWire
