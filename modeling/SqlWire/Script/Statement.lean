import SqlWire.Script.Segment

/-! Analysed statements: what kind of statement it is, where it stands, and
where its parameter markers are. -/
namespace SqlWire

/-- A parameter marker of a statement. -/
structure Marker where
  /-- Counted from one within the statement. -/
  id : Nat
  /-- Character offset in the clean text. -/
  offset : Nat
deriving DecidableEq, Repr

/-- What a statement does, as far as the client cares. -/
inductive StatementKind where
  /-- Produces rows; database and table are those of its first `FROM`. -/
  | query (database table : Option Text)
  | nonQuery
  /-- `SET key = value`, a session parameter. -/
  | setParameter (key value : Text)
deriving DecidableEq, Repr

/-- One statement of a script. -/
structure Statement where
  /-- The statement as it stands in the script, comments included. -/
  source : Text
  /-- The text without comments and without blanks around it. -/
  clean : Text
  /-- The bytes of the script it takes up, from the first to behind the last. -/
  start : Nat
  stop : Nat
  markers : List Marker
  kind : StatementKind
deriving DecidableEq, Repr

namespace Statement

/-- Number of parameter markers. -/
def markerCount (statement : Statement) : Nat := statement.markers.length

/-- Whether the statement produces rows. -/
def isQuery (statement : Statement) : Bool :=
  match statement.kind with
  | .query .. => true
  | _ => false

/-- Key and value of a `SET` statement. -/
def setParameter? (statement : Statement) : Option (Text × Text) :=
  match statement.kind with
  | .setParameter key value => some (key, value)
  | _ => none

/-- The database named in the first `FROM` of a query. -/
def database? (statement : Statement) : Option Text :=
  match statement.kind with
  | .query database _ => database
  | _ => none

/-- The table named in the first `FROM` of a query. -/
def table? (statement : Statement) : Option Text :=
  match statement.kind with
  | .query _ table => table
  | _ => none

end Statement

/-- The statements of a script, in order. -/
structure Script where
  statements : List Statement
deriving DecidableEq, Repr

/-- Number of parameter markers of all statements together. -/
def Script.totalMarkers (script : Script) : Nat :=
  script.statements.foldr (fun statement others => statement.markerCount + others) 0

end SqlWire
