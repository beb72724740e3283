import SqlWire.Text.Folding

/-! The closed set of value categories a result column can have, and the wire
names that stand for them. -/
namespace SqlWire

/-- The category of the values of a column. -/
inductive Kind where
  | boolean
  | smallInt
  | integer
  | bigInt
  | real
  | double
  | decimal
  | text
  | bytea
  | date
  | timestamp
  | timestampTz
  | array
  | tuple
  | json
  /-- The type of a bare null; every cell is null. -/
  | nothing
  /-- A name the table of names does not know; cells are text. -/
  | unknown
deriving DecidableEq, Repr

namespace Kind

/-- The name used in messages and headings. -/
def sqlName : Kind → Text
  | boolean => "BOOLEAN".toList
  | smallInt => "SMALLINT".toList
  | integer => "INTEGER".toList
  | bigInt => "BIGINT".toList
  | real => "REAL".toList
  | double => "DOUBLE PRECISION".toList
  | decimal => "DECIMAL".toList
  | text => "TEXT".toList
  | bytea => "BYTEA".toList
  | date => "DATE".toList
  | timestamp => "TIMESTAMP".toList
  | timestampTz => "TIMESTAMPTZ".toList
  | array => "ARRAY".toList
  | tuple => "TUPLE".toList
  | json => "JSON".toList
  | nothing => "NOTHING".toList
  | unknown => "UNKNOWN".toList

/-- Kinds whose cells are numbers. -/
def isNumeric : Kind → Bool
  | smallInt | integer | bigInt | real | double | decimal => true
  | _ => false

/-- The wire names of the scalar kinds, in any case of their letters. -/
def wireNames : List (Text × Kind) :=
  [("boolean".toList, boolean), ("bool".toList, boolean),
   ("int8".toList, smallInt), ("uint8".toList, smallInt), ("int16".toList, smallInt),
   ("smallint".toList, smallInt), ("int2".toList, smallInt), ("tinyint".toList, smallInt),
   ("int32".toList, integer), ("uint16".toList, integer), ("integer".toList, integer),
   ("int".toList, integer), ("int4".toList, integer),
   ("int64".toList, bigInt), ("uint32".toList, bigInt), ("uint64".toList, bigInt),
   ("bigint".toList, bigInt), ("long".toList, bigInt),
   ("float32".toList, real), ("real".toList, real), ("float4".toList, real),
   ("float".toList, real),
   ("float64".toList, double), ("double".toList, double),
   ("double precision".toList, double), ("float8".toList, double),
   ("decimal".toList, decimal), ("numeric".toList, decimal),
   ("string".toList, text), ("text".toList, text), ("varchar".toList, text),
   ("bytea".toList, bytea),
   ("date".toList, date), ("date32".toList, date), ("pgdate".toList, date),
   ("datetime".toList, timestamp), ("datetime64".toList, timestamp),
   ("timestamp".toList, timestamp), ("timestampntz".toList, timestamp),
   ("timestamp_ext".toList, timestamp),
   ("timestamptz".toList, timestampTz), ("timestamp with time zone".toList, timestampTz),
   ("json".toList, json),
   ("nothing".toList, nothing), ("null".toList, nothing)]

/-- The kind a wire name stands for. -/
def ofWireName? (name : Text) : Option Kind :=
  (wireNames.find? fun (known, _) => Text.sameFolded known name).map Prod.snd

end Kind

end SqlWire
