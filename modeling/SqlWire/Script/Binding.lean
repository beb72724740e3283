import SqlWire.Script.Analysis
import SqlWire.Number.Numeral

/-! Substituting literal texts for parameter markers. Markers are served in
order; each must point at a question mark behind the one before it. -/
namespace SqlWire

/-- Literal texts by marker id. No id occurs twice. -/
structure Bindings where
  entries : List (Nat × Text)
  distinct : (entries.map Prod.fst).Nodup

namespace Bindings

/-- No bindings. -/
def empty : Bindings := ⟨[], List.nodup_nil⟩

/-- The literal bound to a marker id. -/
def get? (bindings : Bindings) (id : Nat) : Option Text := bindings.entries.lookup id

/-- Number of bindings. -/
def size (bindings : Bindings) : Nat := bindings.entries.length

/-- The entries of a list without those of one id. -/
def without (id : Nat) (entries : List (Nat × Text)) : List (Nat × Text) :=
  entries.filter fun entry => entry.1 != id

private theorem not_mem_without (id : Nat) (entries : List (Nat × Text)) :
    id ∉ (without id entries).map Prod.fst := by
  simp [without]

private theorem nodup_without {entries : List (Nat × Text)} (id : Nat)
    (distinct : (entries.map Prod.fst).Nodup) : ((without id entries).map Prod.fst).Nodup :=
  distinct.sublist (List.filter_sublist.map _)

/-- Bind a literal to an id; an earlier binding of the id is replaced. -/
def insert (bindings : Bindings) (id : Nat) (literal : Text) : Bindings :=
  ⟨(id, literal) :: without id bindings.entries,
    List.nodup_cons.mpr
      ⟨not_mem_without id bindings.entries, nodup_without id bindings.distinct⟩⟩

/-- The bindings of a list; the last entry of an id counts. -/
def ofList (entries : List (Nat × Text)) : Bindings :=
  entries.foldl (fun bindings (id, literal) => bindings.insert id literal) empty

/-- Literals bound to the ids `next`, `next + 1` and so on. -/
def numberedFrom (next : Nat) (literals : List Text) : Bindings :=
  ofList (literals.zipIdx.map fun (literal, i) => (next + i, literal))

end Bindings

/-- Why literals cannot be bound. -/
inductive BindingFault where
  /-- A statement has another number of markers than there are bindings. -/
  | count (markers bindings : Nat)
  /-- A statement has another number of markers than there are values. -/
  | valueCount (markers values : Nat)
  /-- A script has another number of markers than there are bindings. -/
  | scriptCount (markers bindings : Nat)
  | pastEnd (id offset length : Nat)
  /-- No question mark behind the marker before stands at the offset. -/
  | noMarker (id offset : Nat)
  | missing (id : Nat)
deriving DecidableEq, Repr

def BindingFault.message : BindingFault → String
  | .count markers bindings =>
    s!"statement has {markers} parameter markers but {bindings} bindings were given"
  | .valueCount markers values =>
    s!"statement has {markers} parameter markers but {values} values were given"
  | .scriptCount markers bindings =>
    s!"expected {markers} bindings for the batch, got {bindings}"
  | .pastEnd id offset length =>
    s!"parameter {id} at offset {offset} is past the end of the statement ({length} chars)"
  | .noMarker id offset => s!"no parameter marker at offset {offset} for parameter {id}"
  | .missing id => s!"missing binding for parameter {id}"

namespace Binding

/-- Serve the markers in order. `rest` is the text from character `position`
on, and `length` the length of the whole text. -/
def substitute (bindings : Bindings) (length position : Nat) (rest : Text) :
    List Marker → Except BindingFault Text
  | [] => .ok rest
  | marker :: markers =>
    if length ≤ marker.offset then .error (.pastEnd marker.id marker.offset length)
    else if marker.offset < position then .error (.noMarker marker.id marker.offset)
    else
      match rest.drop (marker.offset - position) with
      | '?' :: behind =>
        match bindings.get? marker.id with
        | none => .error (.missing marker.id)
        | some literal =>
          (substitute bindings length (marker.offset + 1) behind markers).map fun bound =>
            rest.take (marker.offset - position) ++ literal ++ bound
      | _ => .error (.noMarker marker.id marker.offset)

/-- Put each marker's literal in its place. There must be as many bindings as
markers. -/
def bind (clean : Text) (markers : List Marker) (bindings : Bindings) :
    Except BindingFault Text :=
  if bindings.size ≠ markers.length then .error (.count markers.length bindings.size)
  else substitute bindings clean.length 0 clean markers

end Binding

/-- The clean text of a statement with its markers replaced. -/
def Statement.bind (statement : Statement) (bindings : Bindings) : Except BindingFault Text :=
  Binding.bind statement.clean statement.markers bindings

namespace Script

/-- The bindings of one statement, whose markers are counted from `base` on in
the whole script. -/
def localBindings (bindings : Bindings) (base : Nat) :
    List Marker → Except BindingFault Bindings
  | [] => .ok Bindings.empty
  | marker :: markers =>
    match bindings.get? (base + marker.id) with
    | none => .error (.missing (base + marker.id))
    | some literal => (localBindings bindings base markers).map (·.insert marker.id literal)

/-- Bind statements whose markers are counted from `base` on. -/
def bindFrom (bindings : Bindings) (base : Nat) :
    List Statement → Except BindingFault (List Text)
  | [] => .ok []
  | statement :: statements => do
    let bound ← statement.bind (← localBindings bindings base statement.markers)
    let others ← bindFrom bindings (base + statement.markerCount) statements
    .ok (bound :: others)

/-- Bind literals to the markers of the whole script, counted from one across
its statements, giving one text a statement. -/
def bindAll (script : Script) (bindings : Bindings) : Except BindingFault (List Text) :=
  if bindings.size ≠ script.totalMarkers then
    .error (.scriptCount script.totalMarkers bindings.size)
  else bindFrom bindings 0 script.statements

end Script

end SqlWire
