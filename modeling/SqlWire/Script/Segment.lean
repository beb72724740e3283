import SqlWire.Script.Lexeme
import SqlWire.Text.Blank

/-! Cutting a script at its separators. A segment is the run of lexemes between
two semicolons that stand outside quotes and comments; it knows its place in
the script, its text without comments, and its parameter markers. -/
namespace SqlWire

/-- What is wrong with a script. -/
inductive ScriptFault where
  | unterminatedString
  | unterminatedIdentifier
  /-- A `SET` statement without an equals sign. -/
  | setWithoutEquals
  /-- A `SET` statement that lacks its key or its value. -/
  | setIncomplete
  /-- One statement was expected and this many were found. -/
  | notSingle (found : Nat)
deriving DecidableEq, Repr

def ScriptFault.message : ScriptFault → String
  | .unterminatedString => "unterminated string literal"
  | .unterminatedIdentifier => "unterminated quoted identifier"
  | .setWithoutEquals => "SET statement must have the form SET <key>=<value>"
  | .setIncomplete => "SET statement needs both a key and a value"
  | .notSingle found => s!"expected a single statement, found {found}"

/-- A fault and the byte of the script it is reported at. -/
structure ScriptError where
  position : Nat
  fault : ScriptFault
deriving DecidableEq, Repr

namespace Lexeme

/-- The first quote that is never closed, with the byte it opens at. -/
def openQuote? (offset : Nat) : List Lexeme → Option ScriptError
  | [] => none
  | .string _ false :: _ => some ⟨offset, .unterminatedString⟩
  | .identifier _ false :: _ => some ⟨offset, .unterminatedIdentifier⟩
  | lexeme :: lexemes => openQuote? (offset + Text.byteLength lexeme.source) lexemes

/-- The run up to the first separator, and the runs behind it. -/
def runsFrom : List Lexeme → List Lexeme × List (List Lexeme)
  | [] => ([], [])
  | lexeme :: lexemes =>
    let (first, others) := runsFrom lexemes
    if lexeme.isSeparator then ([], first :: others) else (lexeme :: first, others)

/-- The runs between separators. There is always at least one. -/
def runs (lexemes : List Lexeme) : List (List Lexeme) :=
  let (first, others) := runsFrom lexemes
  first :: others

/-- The text a run stands for. -/
def sourceOf (run : List Lexeme) : Text := run.flatMap source

/-- The text of a run without comments. -/
def cleanOf (run : List Lexeme) : Text := run.flatMap clean

/-- The character offsets, in the clean text of a run that begins at `offset`,
of its parameter markers. -/
def markersOf (offset : Nat) : List Lexeme → List Nat
  | [] => []
  | lexeme :: lexemes =>
    let behind := markersOf (offset + lexeme.clean.length) lexemes
    if lexeme.isMarker then offset :: behind else behind

end Lexeme

/-- A piece of a script between separators. -/
structure Segment where
  /-- The byte of the script it begins at. -/
  start : Nat
  source : Text
  /-- The text without comments, not trimmed. -/
  clean : Text
  /-- Character offsets of the parameter markers in the clean text. -/
  markers : List Nat
deriving DecidableEq, Repr

namespace Segment

/-- The byte behind the last one of the segment. -/
def stop (segment : Segment) : Nat := segment.start + Text.byteLength segment.source

/-- Nothing but comments and blanks. -/
def isBlank (segment : Segment) : Bool := Text.allBlank segment.clean

/-- The segment of a run that begins at byte `start`. -/
def ofRun (start : Nat) (run : List Lexeme) : Segment :=
  ⟨start, Lexeme.sourceOf run, Lexeme.cleanOf run, Lexeme.markersOf 0 run⟩

/-- The segments of consecutive runs, with one separator between neighbours. -/
def ofRuns (start : Nat) : List (List Lexeme) → List Segment
  | [] => []
  | run :: runs =>
    let segment := ofRun start run
    segment :: ofRuns (segment.stop + 1) runs

/-- Cut a script into segments. It fails only when the last quote is open. -/
def scan (script : Text) : Except ScriptError (List Segment) :=
  let lexemes := Lexeme.ofText script
  match Lexeme.openQuote? 0 lexemes with
  | some error => .error error
  | none => .ok (ofRuns 0 (Lexeme.runs lexemes))

end Segment

end SqlWire
