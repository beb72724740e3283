import SqlWire.Script.Statement
import SqlWire.Script.Target

/-! Analysing scripts: segments that are not blank become statements, and each
statement is classified by the word it begins with. -/
namespace SqlWire

namespace StatementKind

/-- What a leading word says about the table a query reads. -/
inductive Lead where
  /-- The table behind the first `FROM`. -/
  | fromClause
  /-- The catalogue of tables. -/
  | catalogue
  | noTable
deriving DecidableEq, Repr

/-- The words that begin a query, in the order they are tried. -/
def queryWords : List (Text × Lead) :=
  [("select".toList, .fromClause), ("show".toList, .noTable), ("describe".toList, .catalogue),
   ("exists".toList, .fromClause), ("explain".toList, .fromClause), ("with".toList, .fromClause),
   ("call".toList, .fromClause)]

/-- What follows the word `SET` when an ASCII blank comes next. -/
def setBody? (clean : Text) : Option Text :=
  match Text.dropWord? "set".toList clean with
  | some (c :: body) => if Text.isAsciiBlank c then some (c :: body) else none
  | _ => none

/-- A text without the quotes around it, when it begins and ends with one. -/
def unwrapQuotes (value : Text) : Text :=
  match (Text.dropLead? ['\''] value).bind (Text.dropLast? '\'') with
  | some inner => inner
  | none => value

/-- Key and value on both sides of the first equals sign. -/
def readAssignment (body : Text) : Except ScriptFault (Text × Text) :=
  match Text.cutAt (· = '=') body with
  | none => .error .setWithoutEquals
  | some (key, value) =>
    let key := Text.trim key
    let value := Text.trim value
    if key.isEmpty || value.isEmpty then .error .setIncomplete
    else .ok (key, unwrapQuotes value)

/-- The kind of a trimmed statement without comments. -/
def ofClean (clean : Text) : Except ScriptFault StatementKind :=
  match setBody? clean with
  | some body => (readAssignment body).map fun (key, value) => .setParameter key value
  | none =>
    match queryWords.find? fun (word, _) => Target.startsWithWord word clean with
    | none => .ok .nonQuery
    | some (_, .noTable) => .ok (.query none none)
    | some (_, .catalogue) => .ok (.query none (some "tables".toList))
    | some (_, .fromClause) =>
      let (database, table) := Target.ofQuery clean
      .ok (.query database table)

end StatementKind

namespace Statement

/-- Number markers from `next` on, counting their offsets from `leading`. -/
def numberMarkers (leading next : Nat) : List Nat → List Marker
  | [] => []
  | offset :: offsets => ⟨next, offset - leading⟩ :: numberMarkers leading (next + 1) offsets

/-- The statement a segment holds. Its markers move with the blanks trimmed off
in front. -/
def ofSegment (segment : Segment) : Except ScriptError Statement :=
  let clean := Text.trim segment.clean
  let leading := (segment.clean.takeWhile Text.isBlank).length
  match StatementKind.ofClean clean with
  | .error fault => .error ⟨segment.start, fault⟩
  | .ok kind =>
    .ok ⟨segment.source, clean, segment.start, segment.stop,
      numberMarkers leading 1 segment.markers, kind⟩

/-- The statement with the segments behind it taken into its source, each
together with the separator before it. -/
def absorb (statement : Statement) (segments : List Segment) : Statement :=
  { statement with
    source := statement.source ++ segments.flatMap fun segment => ';' :: segment.source
    stop := (segments.getLast?.map Segment.stop).getD statement.stop }

end Statement

namespace Script

/-- The statements of a list of segments. Blank segments are dropped, except
that those behind the last statement become part of its source. -/
def ofSegments : List Segment → Except ScriptError (List Statement)
  | [] => .ok []
  | segment :: segments =>
    if segment.isBlank then ofSegments segments
    else do
      let statement ← Statement.ofSegment segment
      let statements ← ofSegments segments
      if statements.isEmpty then .ok [statement.absorb segments]
      else .ok (statement :: statements)

/-- Split a script into its statements. -/
def split (script : Text) : Except ScriptError Script := do
  let segments ← Segment.scan script
  .ok ⟨← ofSegments segments⟩

end Script

namespace Statement

/-- The statement of a text that holds one. A text of nothing but comments is an
empty statement that is no query. -/
def analyze (sql : Text) : Except ScriptError Statement := do
  match (← Script.split sql).statements with
  | [] => .ok ⟨sql, [], 0, Text.byteLength sql, [], .nonQuery⟩
  | [statement] => .ok statement
  | first :: second :: others =>
    .error ⟨second.start, .notSingle (first :: second :: others).length⟩

end Statement

end SqlWire
