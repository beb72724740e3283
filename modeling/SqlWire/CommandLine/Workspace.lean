import SqlWire.CommandLine.Run

/-! A host in memory: a tree of files around the directory in which the program
runs. Directories are there because files are in them, or because every system
has them. Paths are followed part by part, each part looked up in the directory
that the parts before it lead to, and the first part that cannot be followed
decides what is wrong. -/
namespace SqlWire.CommandLine

/-- Where the names of a location begin. -/
inductive Base where
  /-- So many directories above the one the program runs in. -/
  | up (steps : Nat)
  /-- The root of all directories. -/
  | root
deriving DecidableEq, Repr

/-- A location in the tree: the names that lead to it from a base. -/
structure Location where
  base : Base
  names : List Text
deriving DecidableEq, Repr

namespace Location

/-- The directory the program runs in. -/
def start : Location := ⟨.up 0, []⟩

/-- The directory a location is in. The root is in itself. -/
def parent : Location → Location
  | ⟨.up steps, []⟩ => ⟨.up (steps + 1), []⟩
  | ⟨.root, []⟩ => ⟨.root, []⟩
  | ⟨base, name :: names⟩ => ⟨base, (name :: names).dropLast⟩

/-- What has a name in a directory. -/
def child (location : Location) (name : Text) : Location :=
  { location with names := location.names ++ [name] }

/-- Whether the way to `inner` leads through a location or ends in it. -/
def encloses (location inner : Location) : Bool :=
  location.base = inner.base && location.names.isPrefixOf inner.names

end Location

/-- What stands at a location. -/
inductive Place where
  | file (bytes : Bytes)
  | directory
  | vacant
  /-- A device that holds nothing and takes everything. -/
  | null
  /-- A device that gives the standard input. -/
  | input
deriving DecidableEq, Repr

/-- Files by location, and the standard input. -/
structure Workspace where
  files : List (Location × Bytes)
  input : Source
deriving DecidableEq, Repr

namespace Workspace

/-- No such file. -/
def missing : IoFault := ⟨.notFound, "No such file or directory (os error 2)"⟩

/-- A directory where a file is needed. -/
def directory : IoFault := ⟨.other, "Is a directory (os error 21)"⟩

/-- A file where a directory is needed. -/
def noDirectory : IoFault := ⟨.other, "Not a directory (os error 20)"⟩

/-- A name or a path that is too long. -/
def tooLong : IoFault := ⟨.other, "File name too long (os error 36)"⟩

/-- The most bytes of a name. -/
def maxName : Nat := 255

/-- The most bytes of a path. -/
def maxPath : Nat := 4095

/-- What every system has below its root, as far as the program may meet it. -/
def standing : List (List Text × Place) :=
  [(["dev".toList], .directory), (["dev".toList, "null".toList], .null),
   (["dev".toList, "stdin".toList], .input), (["etc".toList], .directory),
   (["proc".toList], .directory), (["tmp".toList], .directory), (["usr".toList], .directory),
   (["var".toList], .directory)]

/-- What stands at a location. -/
def placeOf (workspace : Workspace) (location : Location) : Place :=
  match workspace.files.lookup location with
  | some bytes => .file bytes
  | none =>
    if location.names.isEmpty || workspace.files.any (location.encloses ·.1) then .directory
    else if location.base = .root then (standing.lookup location.names).getD .vacant
    else .vacant

/-- Follow one part of a path. A name need not be there, but what it is looked up
in has to be a directory. -/
def enter (workspace : Workspace) (location : Location) (part : Text) :
    Except IoFault Location :=
  match workspace.placeOf location with
  | .vacant => .error missing
  | .directory =>
    if part = ['.'] then .ok location
    else if part = ['.', '.'] then .ok location.parent
    else if maxName < Text.byteLength part then .error tooLong
    else .ok (location.child part)
  | _ => .error noDirectory

/-- Where a path starts, and its parts. -/
def takeApart (path : Text) : Except IoFault (Location × List Text) :=
  let parts := (Text.fields '/' path).filter (!·.isEmpty)
  if maxPath < Text.byteLength path then .error tooLong
  else
    match path with
    | [] => .error missing
    | '/' :: _ => .ok (⟨.root, []⟩, parts)
    | _ => .ok (.start, parts)

/-- Whether a path ends in a slash, so that it can only lead to a directory. -/
def endsInSlash (path : Text) : Bool := path.getLast? = some '/'

/-- What stands where a path leads. A slash at its end asks for the directory
itself. -/
def find (workspace : Workspace) (path : Text) : Except IoFault Place := do
  let (start, parts) ← takeApart path
  let parts := if endsInSlash path then parts ++ [['.']] else parts
  return workspace.placeOf (← parts.foldlM workspace.enter start)

/-- Open a file. A directory opens too, but cannot be read. -/
def openFile (workspace : Workspace) (path : Text) : Except IoFault Source := do
  match ← workspace.find path with
  | .file bytes => .ok (Source.ofBytes bytes)
  | .null => .ok (Source.ofBytes [])
  | .input => .ok workspace.input
  | .directory => .ok ⟨[], .fails directory⟩
  | .vacant => .error missing

/-- Whether a path names a file. -/
def isFile (workspace : Workspace) (path : Text) : Bool :=
  match workspace.find path with
  | .ok (.file _) => true
  | _ => false

/-- The location a path gives to a file that is to be written. The way to it has
to be there already, and is looked at before the last part is. -/
def newLocation (workspace : Workspace) (path : Text) : Except IoFault Location := do
  let (start, parts) ← takeApart path
  let inside ← parts.dropLast.foldlM workspace.enter start
  let _ ← workspace.enter inside ['.']
  match parts.getLast? with
  | none => .error directory
  | some name =>
    if endsInSlash path || name = ['.'] || name = ['.', '.'] then .error directory
    else workspace.enter inside name

/-- Create a file or replace what it holds. -/
def writeFile (workspace : Workspace) (path : Text) (bytes : Bytes) :
    Except IoFault Workspace := do
  let location ← workspace.newLocation path
  match workspace.placeOf location with
  | .directory => .error directory
  | .null | .input => .ok workspace
  | .vacant | .file _ =>
    .ok { workspace with
      files := (location, bytes) :: workspace.files.filter (·.1 != location) }

/-- The bytes of a file. -/
def bytes? (workspace : Workspace) (path : Text) : Option Bytes :=
  match workspace.find path with
  | .ok (.file bytes) => some bytes
  | .ok .null => some []
  | _ => none

/-- A workspace of files below the directory the program runs in. -/
def ofFiles (files : List (List Text × Bytes)) (input : Source) : Workspace :=
  ⟨files.map fun (names, bytes) => (⟨.up 0, names⟩, bytes), input⟩

/-- The workspace as a host. -/
def host : Host (StateM Workspace) where
  openFile path := do return (← get).openFile path
  standardInput := do return (← get).input
  isFile path := do return (← get).isFile path
  writeFile path bytes := do
    match (← get).writeFile path bytes with
    | .ok workspace =>
      set workspace
      return .ok ()
    | .error fault => return .error fault

/-- Run the program in a workspace whose directory is the user's home. -/
def run (workspace : Workspace) (settingsFile : Option Text) (arguments : List Text) :
    Outcome × Workspace :=
  (CommandLine.run host ⟨settingsFile, some ".config".toList⟩ arguments).run workspace

end Workspace

end SqlWire.CommandLine
