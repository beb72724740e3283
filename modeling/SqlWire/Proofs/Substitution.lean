import SqlWire.Param.Basic
import SqlWire.Proofs.Cleaning

/-! Substitution as a function of lexemes. The markers of a clean text are its
question marks outside quotes, so serving them in order puts the literals in their
places and leaves every other lexeme as it is. -/
namespace SqlWire.Substitution
open Lexeme Cleaning

/-! ## Bindings -/

private theorem lookup_without {id other : Nat} (apart : other ≠ id)
    (entries : List (Nat × Text)) :
    (Bindings.without id entries).lookup other = entries.lookup other := by
  induction entries with
  | nil => rfl
  | cons entry entries ih =>
    obtain ⟨key, literal⟩ := entry
    rw [Bindings.without] at ih ⊢
    by_cases here : key = id
    · have skipped : (other == id) = false := beq_eq_false_iff_ne.mpr apart
      simp [here, List.lookup_cons, ih, skipped]
    · simp [here, List.lookup_cons, ih]

theorem get_insert (bindings : Bindings) (id other : Nat) (literal : Text) :
    (bindings.insert id literal).get? other =
      if other = id then some literal else bindings.get? other := by
  by_cases same : other = id
  · simp [Bindings.insert, Bindings.get?, same]
  · have skipped : (other == id) = false := beq_eq_false_iff_ne.mpr same
    simp [Bindings.insert, Bindings.get?, List.lookup_cons, same, skipped, lookup_without same]

theorem size_insert (bindings : Bindings) {id : Nat} (fresh : bindings.get? id = none)
    (literal : Text) : (bindings.insert id literal).size = bindings.size + 1 := by
  have kept : Bindings.without id bindings.entries = bindings.entries := by
    rw [Bindings.without, List.filter_eq_self]
    intro entry member
    have other := List.lookup_eq_none_iff.mp fresh entry member
    simpa [bne, Bool.beq_comm] using other
  simp [Bindings.insert, Bindings.size, kept]

/-- Binding literals to consecutive ids above all ids that are bound already. -/
private theorem numbered_onto (base : Nat) (literals : List Text) (start : Nat)
    (bindings : Bindings)
    (fresh : ∀ i, bindings.get? (base + start + i) = none) :
    let result := ((literals.zipIdx start).map fun (literal, i) => (base + i, literal)).foldl
      (fun bindings (id, literal) => bindings.insert id literal) bindings
    result.size = bindings.size + literals.length ∧
      (∀ i, result.get? (base + start + i) = literals[i]?) ∧
      ∀ id < base + start, result.get? id = bindings.get? id := by
  induction literals generalizing start bindings with
  | nil => simpa using fresh
  | cons literal literals ih =>
    let first := bindings.insert (base + start) literal
    have behind : ∀ i, first.get? (base + (start + 1) + i) = none := by
      intro i
      rw [get_insert, if_neg (by omega)]
      have := fresh (i + 1)
      rwa [show base + start + (i + 1) = base + (start + 1) + i by omega] at this
    obtain ⟨size, above, below⟩ := ih (start + 1) first behind
    refine ⟨?_, ?_, ?_⟩
    · have grown := size_insert bindings (fresh 0) literal
      rw [Nat.add_zero] at grown
      simp only [List.zipIdx_cons, List.map_cons, List.foldl_cons, List.length_cons]
      rw [size, grown]
      omega
    · rintro (_ | i)
      · have here := below (base + start) (by omega)
        simpa [first, get_insert] using here
      · have there := above i
        rw [show base + (start + 1) + i = base + start + (i + 1) by omega] at there
        simpa using there
    · intro id lower
      have there := below id (by omega)
      rw [get_insert, if_neg (by omega)] at there
      simpa using there

theorem numbered_size (next : Nat) (literals : List Text) :
    (Bindings.numberedFrom next literals).size = literals.length := by
  have onto :=
    (numbered_onto next literals 0 Bindings.empty (by simp [Bindings.empty, Bindings.get?])).1
  simpa [Bindings.numberedFrom, Bindings.ofList, Bindings.empty, Bindings.size] using onto

/-- Literals are found under the ids that count from the first of them. -/
theorem numbered_get (next : Nat) (literals : List Text) (i : Nat) :
    (Bindings.numberedFrom next literals).get? (next + i) = literals[i]? :=
  (numbered_onto next literals 0 Bindings.empty (by simp [Bindings.empty, Bindings.get?])).2.1 i

/-! ## Replacing markers -/

/-- The text of lexemes with the first literal in place of the first marker, and so
on. -/
def replaced : List Lexeme → List Text → Text
  | [], _ => []
  | lexeme :: lexemes, literals =>
    if lexeme.isMarker then
      match literals with
      | [] => lexeme.source ++ replaced lexemes []
      | literal :: others => literal ++ replaced lexemes others
    else lexeme.source ++ replaced lexemes literals

/-- What stands before the next marker is passed over. -/
theorem substitute_passes (bindings : Bindings) (length position : Nat) (front rest : Text)
    (markers : List Marker)
    (behind : ∀ marker ∈ markers.head?, position + front.length ≤ marker.offset) :
    Binding.substitute bindings length position (front ++ rest) markers =
      (Binding.substitute bindings length (position + front.length) rest markers).map
        (front ++ ·) := by
  cases markers with
  | nil => rfl
  | cons marker markers =>
    have place := behind marker rfl
    have there : (front ++ rest).drop (marker.offset - position) =
        rest.drop (marker.offset - (position + front.length)) := by
      rw [List.drop_append, List.drop_eq_nil_of_le (by omega), List.nil_append, Nat.sub_sub]
    have before : (front ++ rest).take (marker.offset - position) =
        front ++ rest.take (marker.offset - (position + front.length)) := by
      rw [List.take_append, List.take_of_length_le (by omega), Nat.sub_sub]
    have ordered : ¬ marker.offset < position := by omega
    have ordered' : ¬ marker.offset < position + front.length := by omega
    simp only [Binding.substitute, there, before, ordered, ordered', ↓reduceIte]
    split
    · rfl
    split
    · split
      · rfl
      · simp only [Except.map]
        split <;> simp
    · rfl

private theorem next_marker (base next : Nat) (lexemes : List Lexeme) :
    ∀ marker ∈ (Statement.numberMarkers 0 next (markersOf base lexemes)).head?,
      base ≤ marker.offset := by
  intro marker first
  cases offsets : markersOf base lexemes with
  | nil =>
    rw [offsets] at first
    cases first
  | cons offset others =>
    rw [offsets] at first
    cases first
    exact (Lexis.markers_ascend base lexemes).2 offset (by rw [offsets]; exact List.mem_cons_self)

/-- Serving the markers of settled lexemes replaces them in order. -/
theorem substitute_replaces (settled : ∀ lexeme ∈ lexemes, Settled lexeme)
    (bindings : Bindings) (next position : Nat)
    (bound : ∀ i, bindings.get? (next + i) = literals[i]?)
    (count : literals.length = (markersOf position lexemes).length)
    (whole : length = position + (sourceOf lexemes).length) :
    Binding.substitute bindings length position (sourceOf lexemes)
      (Statement.numberMarkers 0 next (markersOf position lexemes)) =
      .ok (replaced lexemes literals) := by
  induction lexemes generalizing next position literals with
  | nil => rfl
  | cons lexeme lexemes ih =>
    have others : ∀ other ∈ lexemes, Settled other :=
      fun other member => settled other (List.mem_cons_of_mem _ member)
    have front : sourceOf (lexeme :: lexemes) = lexeme.source ++ sourceOf lexemes := by
      simp [sourceOf]
    rw [front, List.length_append] at whole
    rw [front]
    by_cases marker : lexeme = .char '?'
    · subst marker
      have marks : markersOf position (.char '?' :: lexemes) =
          position :: markersOf (position + 1) lexemes := rfl
      rw [marks, List.length_cons] at count
      rw [marks]
      cases literals with
      | nil => cases count
      | cons literal literals =>
        have first : bindings.get? next = some literal := by simpa using bound 0
        have served := ih others (next + 1) (position + 1)
          (fun i => by simpa [Nat.add_assoc, Nat.add_comm 1] using bound (i + 1))
          (by simpa using count) (by simp only [source, List.length_singleton] at whole; omega)
        have inside : ¬ length ≤ position := by
          simp only [source, List.length_singleton] at whole
          omega
        simp [Statement.numberMarkers, Binding.substitute, inside, source, first, served, replaced,
          isMarker, Except.map]
    · have marks : markersOf position (lexeme :: lexemes) =
          markersOf (position + lexeme.source.length) lexemes := by
        have same : lexeme.clean = lexeme.source := by
          cases settled lexeme List.mem_cons_self <;> rfl
        simp [markersOf, isMarker, marker, same]
      rw [marks] at count
      rw [marks, substitute_passes _ _ _ _ _ _ (next_marker _ _ _),
        ih others next _ bound count (by omega)]
      simp [replaced, isMarker, marker, Except.map]

theorem numbered_length (base next : Nat) (offsets : List Nat) :
    (Statement.numberMarkers base next offsets).length = offsets.length := by
  induction offsets generalizing next with
  | nil => rfl
  | cons offset offsets ih => rw [Statement.numberMarkers, List.length_cons, ih, List.length_cons]

/-- The literals of bound values stand in the clean text where its markers stood. -/
theorem bind_values_replaces {statement : Statement} {values : List Param}
    (clean : IsClean lexemes) (text : statement.clean = sourceOf lexemes)
    (markers : statement.markers = Statement.numberMarkers 0 1 (markersOf 0 lexemes))
    (count : values.length = statement.markerCount)
    (rendered : Param.renderAll? values = some literals) (each : literals.length = values.length) :
    statement.bindValues? values = some (.ok (replaced lexemes literals)) := by
  have offsets : literals.length = (markersOf 0 lexemes).length := by
    rw [each, count, Statement.markerCount, markers, numbered_length]
  have served := substitute_replaces clean.settled (Bindings.numberedFrom 1 literals) 1 0
    (numbered_get 1 _) offsets (Nat.zero_add _).symm
  have size : (Bindings.numberedFrom 1 literals).size =
      (Statement.numberMarkers 0 1 (markersOf 0 lexemes)).length := by
    rw [numbered_size, numbered_length, offsets]
  simp [Statement.bindValues?, count, rendered, Statement.bind, Binding.bind, markers, size, text,
    served]

end SqlWire.Substitution
