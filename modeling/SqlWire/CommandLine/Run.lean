import SqlWire.CommandLine.Arguments
import SqlWire.CommandLine.Report
import SqlWire.Param.Infer
import SqlWire.Wire.BlockWriter

/-! Running the command line. All that reaches outside goes through a host, so
that the same program runs on files of a machine and on files in memory. -/
namespace SqlWire.CommandLine

/-- What the program can do to the world around it. -/
structure Host (m : Type → Type) where
  /-- Open a file for reading. -/
  openFile : Text → m (Except IoFault Source)
  standardInput : m Source
  isFile : Text → m Bool
  /-- Create a file or replace what it holds. -/
  writeFile : Text → Bytes → m (Except IoFault Unit)

/-- What the program finds around it besides files. -/
structure Surroundings where
  /-- The file of settings named by the environment. -/
  settingsFile : Option Text
  /-- The directory of the user's settings. -/
  settingsDirectory : Option Text
deriving DecidableEq, Repr

/-- What a run comes to. -/
structure Outcome where
  exit : Nat
  output : Text
  errors : Text
deriving DecidableEq, Repr

/-- A failure of a command: its causes, the outermost first. -/
abbrev Causes := List Text

/-- Why a command stops short. -/
inductive CommandFault where
  | failed (causes : Causes)
  /-- A cell or a fraction would have to be filled up beyond the limit. -/
  | tooWide
deriving DecidableEq, Repr

/-- A step of a command. -/
abbrev Step (m : Type → Type) := ExceptT CommandFault m

/-- The causes of a failure. A fault of a file is named once more by itself. -/
def causesOf (failure : Failure) : Causes :=
  failure.message.toList ::
    match failure with
    | .io fault => [fault.message.toList]
    | _ => []

section Steps

variable {m : Type → Type} [Monad m]

/-- Fail with a fault of a file, after what was being done. -/
def failDoing {α : Type} (doing path : Text) (fault : IoFault) : Step m α :=
  throw (.failed [doing ++ ' ' :: path, fault.message.toList])

/-- Fail, or go on with a result. -/
def orFail {α : Type} (result : Except Failure α) : Step m α :=
  match result with
  | .ok value => pure value
  | .error failure => throw (.failed (causesOf failure))

/-- Go on with what can be laid out, or stop. -/
def orStop {α : Type} (result? : Option α) : Step m α :=
  match result? with
  | some result => pure result
  | none => throw .tooWide

/-- Open a file, or the standard input for a dash. -/
def openInput (host : Host m) (path : Text) : Step m Source := do
  if path = ['-'] then ExceptT.lift host.standardInput
  else
    match ← ExceptT.lift (host.openFile path) with
    | .ok source => pure source
    | .error fault => failDoing "opening".toList path fault

/-- All bytes of a source. -/
def readAll (source : Source) : Except IoFault Bytes :=
  (source.read (source.content.length + 1)).1

/-- All bytes of a file or the standard input. -/
def readInput (host : Host m) (path : Text) : Step m Bytes := do
  match readAll (← openInput host path) with
  | .ok bytes => pure bytes
  | .error fault => failDoing "reading".toList path fault

/-- What stands before a complaint about settings. -/
def settingsHeading (path : Text) : Text := "Configuration error: ".toList ++ path ++ ": ".toList

/-- The settings of a file. -/
def settingsOf (host : Host m) (path : Text) : Step m Settings := do
  let refuse (message : String) : Step m Settings :=
    throw (.failed ["loading configuration".toList, settingsHeading path ++ message.toList])
  match (← ExceptT.lift (host.openFile path)).bind readAll with
  | .error fault => refuse fault.message
  | .ok bytes =>
    match Text.ofUtf8 bytes with
    | .error _ => refuse "stream did not contain valid UTF-8"
    | .ok text =>
      match Settings.ofText text with
      | .error fault => refuse fault.message
      | .ok settings => pure settings

/-- Where settings are looked for when no file is named. -/
def settingsPaths (surroundings : Surroundings) : List Text :=
  "boltwire.toml".toList ::
    (surroundings.settingsDirectory.map (· ++ "/boltwire/config.toml".toList)).toList

/-- The first of these paths that is a file. -/
def firstFile? (host : Host m) : List Text → m (Option Text)
  | [] => pure none
  | path :: paths => do
    if ← host.isFile path then pure (some path) else firstFile? host paths

/-- The settings of the named file, or of the first file found, or else the
defaults. -/
def loadSettings (host : Host m) (surroundings : Surroundings) (named : Option Text) :
    Step m Settings := do
  match named with
  | some path => settingsOf host path
  | none =>
    match ← ExceptT.lift (firstFile? host (settingsPaths surroundings)) with
    | some path => settingsOf host path
    | none => pure {}

/-- Describe the statements of a script. -/
def runSplit (host : Host m) (file : Text) : Step m Text := do
  match Text.ofUtf8 (← readInput host file) with
  | .error fault => throw (.failed ["script is not valid UTF-8".toList, fault.message.toList])
  | .ok text => return Report.script (← orFail ((Script.split text).mapError .script))

/-- Bind words to the markers of a script. -/
def bindWords? (sql : Text) (words : List Text) : Option (Except Failure (List Text)) :=
  match Script.split sql with
  | .error fault => some (.error (.script fault))
  | .ok script =>
    (Param.renderAll? (words.map Param.infer)).map fun literals =>
      (script.bindAll (Bindings.numberedFrom 1 literals)).mapError .binding

/-- Why a row is missing: the cursor did not move on to it, or a cell of the
`number`th row has no value. -/
inductive RowsFault where
  | moving (failure : Failure)
  | decoding (number : Nat) (failure : Failure)
deriving DecidableEq, Repr

def RowsFault.causes : RowsFault → Causes
  | .moving failure => causesOf failure
  | .decoding number failure =>
    ("decoding row ".toList ++ Numeral.ofNat number) :: causesOf failure

/-- The rows a cursor has left, `most` at most, behind the rows read so far, the
latest of which is first. -/
def rowsWithin : (most : Nat) → Cursor → List (List Value) → Except RowsFault (List (List Value))
  | 0, _, found => .ok found.reverse
  | most + 1, cursor, found =>
    match cursor.next with
    | (.error failure, _) => .error (.moving failure)
    | (.ok false, _) => .ok found.reverse
    | (.ok true, cursor) =>
      match cursor.values with
      | .error failure => .error (.decoding cursor.rowCount failure)
      | .ok values => rowsWithin most cursor (values :: found)

/-- All rows of a cursor over a feed. Every row takes up a byte of it. -/
def rowsOf (feed : Feed) (cursor : Cursor) : Except RowsFault (List (List Value)) :=
  rowsWithin (feed.byteBound + 1) cursor []

/-- Decode a body and print its rows. -/
def runDecode (host : Host m) (settings : Settings) (file : Text) (compressed : Bool)
    (format : Option OutputFormat) : Step m Text := do
  let source ← openInput host file
  let feed : Feed :=
    if compressed || settings.compressed then .blocks (BlockReader.ofSource source settings.readLimit)
    else .plain source
  let cursor ← orFail (Cursor.ofFeed feed)
  match rowsOf feed cursor with
  | .error fault => throw (.failed fault.causes)
  | .ok rows =>
    match format.getD settings.format with
    | .table => orStop (Report.table? cursor.columns rows)
    | .json => orStop (Report.json? cursor.columns rows)

/-- The stream that `blockSize` makes of plain bytes, and its blocks. -/
def compressAll (blockSize : Nat) (plain : Bytes) : Except StreamFault (Bytes × Nat) :=
  match (BlockWriter.ofSink Sink.empty blockSize).writeAll plain with
  | (some fault, _) => .error fault
  | (none, writer) =>
    match writer.flush with
    | (some fault, _) => .error fault
    | (none, writer) => .ok (writer.sink.taken, writer.blocksWritten)

/-- Compress a file into another. -/
def runCompress (host : Host m) (input output : Text) (blockSize : Nat) : Step m Text := do
  let plain ← readInput host input
  let (stream, blocks) ← orFail ((compressAll blockSize plain).mapError .ofStream)
  match ← ExceptT.lift (host.writeFile output stream) with
  | .error fault => failDoing "creating".toList output fault
  | .ok _ => return Report.compressed plain.length stream.length blocks

/-- Run one command. -/
def runCommand (host : Host m) (settings : Settings) : Command → Step m Text
  | .split file => runSplit host file
  | .bind sql words => do return Report.lines (← orFail (← orStop (bindWords? sql words)))
  | .decode file compressed format => runDecode host settings file compressed format
  | .compress input output blockSize =>
    runCompress host input output (blockSize.getD settings.blockSize)
  | .hash file => do return Report.digest (Digest.of (← readInput host file))

/-- Name and version of the program. -/
def versionText : Text := "boltwire 0.3.0\n".toList

/-- How the program is called. -/
def helpText : Text :=
  Report.lines (["Usage: boltwire [OPTIONS] <COMMAND>", "", "Commands: split, bind, decode, compress, hash"].map
    String.toList)

/-- Run the program. A usage error exits with two, a failed command with one, and
a command that cannot lay out its rows with a hundred and one. -/
def run (host : Host m) (surroundings : Surroundings) (arguments : List Text) : m Outcome := do
  match readArguments surroundings.settingsFile arguments with
  | .error .usage => return ⟨2, [], helpText⟩
  | .error .help => return ⟨0, helpText, []⟩
  | .error .version => return ⟨0, versionText, []⟩
  | .ok invocation =>
    let command : Step m Text := do
      let settings ← loadSettings host surroundings invocation.settingsFile
      runCommand host settings invocation.command
    match ← command.run with
    | .ok output => return ⟨0, output, []⟩
    | .error (.failed causes) =>
      return ⟨1, [], Report.lines ["Error: ".toList ++ Text.joinWith ": ".toList causes]⟩
    | .error .tooWide => return ⟨101, [], Report.lines ["the rows are too wide to lay out".toList]⟩

end Steps

end SqlWire.CommandLine
