import SqlWire.CommandLine.Run

/-! The program on a machine: its arguments, its environment and its files. -/
namespace SqlWire.CommandLine

/-- The fault an attempt met, in the words of the system, with its number. -/
def faultOf (error : IO.Error) : IoFault :=
  let numbered (details : String) (number : UInt32) : String := s!"{details} (os error {number})"
  match error with
  | .noFileOrDirectory _ number details => ⟨.notFound, numbered details number⟩
  | .inappropriateType _ number details => ⟨.other, numbered details number⟩
  | .permissionDenied _ number details => ⟨.other, numbered details number⟩
  | .invalidArgument _ number details => ⟨.other, numbered details number⟩
  | .resourceExhausted _ number details => ⟨.other, numbered details number⟩
  | .resourceBusy number details => ⟨.other, numbered details number⟩
  | .hardwareFault number details => ⟨.other, numbered details number⟩
  | .otherError number details => ⟨.other, numbered details number⟩
  | error => ⟨.other, toString error⟩

/-- Read a stream to its end. -/
partial def readStream (stream : IO.FS.Stream) (found : ByteArray) : IO ByteArray := do
  let more ← stream.read 65536
  if more.isEmpty then return found else readStream stream (found ++ more)

/-- The files of the machine. -/
def machine : Host IO where
  openFile path := do
    match ← (IO.FS.Handle.mk (String.ofList path) .read).toBaseIO with
    | .error error => return .error (faultOf error)
    | .ok handle =>
      match ← handle.readBinToEnd.toBaseIO with
      | .error error => return .ok ⟨[], .fails (faultOf error)⟩
      | .ok bytes => return .ok (Source.ofBytes bytes.toList)
  standardInput := do
    return Source.ofBytes (← readStream (← IO.getStdin) .empty).toList
  isFile path := do
    return (← (IO.FS.readBinFile (String.ofList path)).toBaseIO).isOk
  writeFile path bytes := do
    let written ← (IO.FS.writeBinFile (String.ofList path) ⟨bytes.toArray⟩).toBaseIO
    return written.mapError faultOf

/-- The directory of the user's settings. -/
def settingsDirectory : IO (Option Text) := do
  match ← IO.getEnv "XDG_CONFIG_HOME" with
  | some directory => if directory.startsWith "/" then return some directory.toList
  | none => pure ()
  return (← IO.getEnv "HOME").map fun home => home.toList ++ "/.config".toList

end SqlWire.CommandLine

open SqlWire.CommandLine in
def main (arguments : List String) : IO UInt32 := do
  let settingsFile := (← IO.getEnv "BOLTWIRE_CONFIG").map String.toList
  let outcome ← run machine ⟨settingsFile, ← settingsDirectory⟩ (arguments.map String.toList)
  (← IO.getStdout).putStr (String.ofList outcome.output)
  (← IO.getStderr).putStr (String.ofList outcome.errors)
  return UInt32.ofNat outcome.exit
