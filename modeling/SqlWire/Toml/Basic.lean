import SqlWire.Text.Basic

/-! TOML documents as trees, and the rules by which the lines of a document add
up to one. A table may be opened once by a header; tables that only lie on the
way to a header may still be opened by one, and tables made by dotted keys may
be added to by dotted keys only. Nothing is ever written over. -/
namespace SqlWire

/-- How a table came about. -/
inductive Toml.Origin where
  /-- Written in braces; it is complete. -/
  | inlined
  /-- Opened by a header of its own. -/
  | headed
  /-- Named on the way to a header. -/
  | implied
  /-- Named on the way to the last part of a dotted key. -/
  | dotted
deriving DecidableEq, Repr

/-- A TOML value. -/
inductive Toml where
  | string (value : Text)
  | integer (value : Int)
  | float (value : Float)
  | boolean (value : Bool)
  /-- A date, a time or both. Nothing asks which, so it is not kept. -/
  | moment
  | array (items : List Toml)
  | table (origin : Toml.Origin) (members : List (Text × Toml))
  /-- The tables that headers in double brackets opened, the latest first. -/
  | tables (rows : List (List (Text × Toml)))

namespace Toml

/-- The members of a table, in the order of their first mention. -/
abbrev Members := List (Text × Toml)

/-- Give a member a value, in its place or behind all others. -/
def put (name : Text) (value : Toml) : Members → Members
  | [] => [(name, value)]
  | (other, kept) :: members =>
    if name = other then (name, value) :: members else (other, kept) :: put name value members

/-- Add a member of a dotted key, whose last part is `key`. -/
def insertAt (key : Text) (value : Toml) : (path : List Text) → Members → Option Members
  | [], members => if (members.lookup key).isSome then none else some (put key value members)
  | name :: path, members =>
    match members.lookup name with
    | none =>
      (insertAt key value path []).map fun inner => put name (.table .dotted inner) members
    | some (.table .dotted inner) =>
      (insertAt key value path inner).map fun inner => put name (.table .dotted inner) members
    | some (.table .implied inner) =>
      if path.isEmpty then none
      else (insertAt key value path inner).map fun inner => put name (.table .implied inner) members
    | some (.tables rows) =>
      if path.isEmpty then none
      else
        (insertAt key value path (rows.headD [])).map fun row =>
          put name (.tables (row :: rows.tail)) members
    | some _ => none

/-- Change the table a path leads to. Missing tables on the way are made, and of
an array of tables the last one is meant. -/
def within (change : Members → Option Members) : (path : List Text) → Members → Option Members
  | [], members => change members
  | name :: path, members =>
    match members.lookup name with
    | none => (within change path []).map fun inner => put name (.table .implied inner) members
    | some (.table .inlined _) => none
    | some (.table origin inner) =>
      (within change path inner).map fun inner => put name (.table origin inner) members
    | some (.tables rows) =>
      (within change path (rows.headD [])).map fun row =>
        put name (.tables (row :: rows.tail)) members
    | some _ => none

/-- A dotted key and its value. -/
structure Entry where
  path : List Text
  key : Text
  value : Toml

/-- Add entries in order. -/
def fill (entries : List Entry) (members : Members) : Option Members :=
  entries.foldlM (fun members entry => insertAt entry.key entry.value entry.path members) members

/-- A header in single or double brackets. -/
structure Header where
  path : List Text
  key : Text
  repeats : Bool
deriving DecidableEq, Repr

/-- A header and the entries below it. -/
structure Section where
  header : Header
  entries : List Entry

/-- Open the table that a header names, or add one to its array, and fill it. -/
def addSection (members : Members) (part : Section) : Option Members :=
  let key := part.header.key
  within (fun members =>
    match members.lookup key, part.header.repeats with
    | none, false =>
      (fill part.entries []).map fun inner => put key (.table .headed inner) members
    | some (.table .implied inner), false =>
      (fill part.entries inner).map fun inner => put key (.table .headed inner) members
    | none, true => (fill part.entries []).map fun row => put key (.tables [row]) members
    | some (.tables rows), true =>
      (fill part.entries []).map fun row => put key (.tables (row :: rows)) members
    | _, _ => none) part.header.path members

/-- The members of a document: entries before the first header, and sections. -/
def assemble (entries : List Entry) (sections : List Section) : Option Members := do
  let members ← fill entries []
  sections.foldlM addSection members

end Toml

end SqlWire
