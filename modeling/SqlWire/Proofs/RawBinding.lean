import SqlWire.Script.Binding
import Mathlib.Data.List.Basic

/-! Binding any text with any markers, whether or not they come from analysis. Either every
marker can be served, and then each character of the text stands for itself or for the
literal of the marker at its offset; or there is a first marker that cannot be served, and
the fault names it with the first check that it fails. -/
namespace SqlWire.RawBinding

/-- Markers that can be served one after the other, none of them before `position`: each
stands behind the one before it, at a question mark of the text, and its id has a literal. -/
structure Servable (clean : Text) (bindings : Bindings) (position : Nat)
    (markers : List Marker) : Prop where
  ascending : (markers.map Marker.offset).Pairwise (· < ·)
  ahead : ∀ marker ∈ markers, position ≤ marker.offset
  marked : ∀ marker ∈ markers, clean[marker.offset]? = some '?'
  bound : ∀ marker ∈ markers, ∃ literal, bindings.get? marker.id = some literal

/-- What is wrong with a marker that is to stand at `position` or behind it. A later check
counts only where the earlier ones pass. -/
inductive Offends (clean : Text) (bindings : Bindings) (position : Nat) (marker : Marker) :
    BindingFault → Prop where
  | pastEnd (beyond : clean.length ≤ marker.offset) :
      Offends clean bindings position marker
        (.pastEnd marker.id marker.offset clean.length)
  | noMarker (inside : marker.offset < clean.length)
      (misplaced : clean[marker.offset]? ≠ some '?' ∨ marker.offset < position) :
      Offends clean bindings position marker (.noMarker marker.id marker.offset)
  | missing (marked : clean[marker.offset]? = some '?') (ahead : position ≤ marker.offset)
      (unbound : bindings.get? marker.id = none) :
      Offends clean bindings position marker (.missing marker.id)

/-- The offset behind the last of these markers, or `position` if there is none. -/
def reached (position : Nat) (markers : List Marker) : Nat :=
  (markers.getLast?.map (·.offset + 1)).getD position

/-- What stands in a bound text for the character at an offset: the literal of the marker
there, or the character itself. -/
def boundChar (bindings : Bindings) (markers : List Marker) (place : Char × Nat) : Text :=
  match markers.find? (·.offset = place.2) with
  | some marker => (bindings.get? marker.id).getD []
  | none => [place.1]

variable {clean : Text} {bindings : Bindings} {marker : Marker}

/-! ## Single markers -/

private theorem marked_inside (marked : clean[marker.offset]? = some '?') :
    marker.offset < clean.length :=
  (List.getElem?_eq_some_iff.mp marked).1

private theorem drop_marked (marked : clean[marker.offset]? = some '?') :
    clean.drop marker.offset = '?' :: clean.drop (marker.offset + 1) := by
  obtain ⟨inside, here⟩ := List.getElem?_eq_some_iff.mp marked
  rw [List.drop_eq_getElem_cons inside, here]

/-- Behind a position, the text up to a later one and the text behind that. -/
theorem drop_ahead (ahead : position ≤ offset) (clean : Text) :
    (clean.drop position).drop (offset - position) = clean.drop offset := by
  rw [List.drop_drop, Nat.add_sub_cancel' ahead]

/-- A marker that can be served puts its literal behind the text before it. -/
theorem marker_served (marked : clean[marker.offset]? = some '?')
    (ahead : position ≤ marker.offset) (bound : bindings.get? marker.id = some literal)
    (markers : List Marker) :
    Binding.substitute bindings clean.length position (clean.drop position) (marker :: markers) =
      (Binding.substitute bindings clean.length (marker.offset + 1)
        (clean.drop (marker.offset + 1)) markers).map fun text =>
          (clean.drop position).take (marker.offset - position) ++ literal ++ text := by
  have inside := marked_inside marked
  rw [Binding.substitute, if_neg (Nat.not_le.mpr inside), if_neg (Nat.not_lt.mpr ahead),
    drop_ahead ahead, drop_marked marked]
  simp only [bound]

/-- A marker that cannot be served stops the binding with its fault. -/
theorem offender_stops (offends : Offends clean bindings position marker fault)
    (markers : List Marker) :
    Binding.substitute bindings clean.length position (clean.drop position) (marker :: markers) =
      .error fault := by
  rw [Binding.substitute]
  cases offends with
  | pastEnd beyond => rw [if_pos beyond]
  | noMarker inside misplaced =>
    rw [if_neg (Nat.not_le.mpr inside)]
    by_cases before : marker.offset < position
    · rw [if_pos before]
    · have other : clean[marker.offset] ≠ '?' := by
        rcases misplaced with unmarked | before'
        · simpa [inside] using unmarked
        · exact absurd before' before
      rw [if_neg before, drop_ahead (Nat.not_lt.mp before), List.drop_eq_getElem_cons inside]
      split
      next same => exact absurd (List.cons.inj same).1 other
      next => rfl
  | missing marked ahead unbound =>
    have inside := marked_inside marked
    rw [if_neg (Nat.not_le.mpr inside), if_neg (Nat.not_lt.mpr ahead), drop_ahead ahead,
      drop_marked marked]
    simp only [unbound]

/-- A marker can be served, or something is wrong with it. -/
theorem marker_cases (clean : Text) (bindings : Bindings) (position : Nat) (marker : Marker) :
    (clean[marker.offset]? = some '?' ∧ position ≤ marker.offset ∧
        ∃ literal, bindings.get? marker.id = some literal) ∨
      ∃ fault, Offends clean bindings position marker fault := by
  by_cases beyond : clean.length ≤ marker.offset
  · exact .inr ⟨_, .pastEnd beyond⟩
  have inside := Nat.not_le.mp beyond
  by_cases marked : clean[marker.offset]? = some '?'
  swap
  · exact .inr ⟨_, .noMarker inside (.inl marked)⟩
  by_cases before : marker.offset < position
  · exact .inr ⟨_, .noMarker inside (.inr before)⟩
  have ahead := Nat.not_lt.mp before
  cases found : bindings.get? marker.id with
  | none => exact .inr ⟨_, .missing marked ahead found⟩
  | some literal => exact .inl ⟨marked, ahead, literal, rfl⟩

/-! ## Lists of markers -/

private theorem servable_nil (clean : Text) (bindings : Bindings) (position : Nat) :
    Servable clean bindings position [] :=
  ⟨.nil, by simp, by simp, by simp⟩

private theorem servable_cons : Servable clean bindings position (marker :: markers) ↔
    (clean[marker.offset]? = some '?' ∧ position ≤ marker.offset ∧
      ∃ literal, bindings.get? marker.id = some literal) ∧
      Servable clean bindings (marker.offset + 1) markers := by
  constructor
  · rintro ⟨ascending, ahead, marked, bound⟩
    rw [List.map_cons, List.pairwise_cons, List.forall_mem_map] at ascending
    rw [List.forall_mem_cons] at ahead marked bound
    exact ⟨⟨marked.1, ahead.1, bound.1⟩, ascending.2, ascending.1, marked.2, bound.2⟩
  · rintro ⟨⟨marked, ahead, bound⟩, behind⟩
    refine ⟨?_, List.forall_mem_cons.mpr ⟨ahead, fun other member => ?_⟩,
      List.forall_mem_cons.mpr ⟨marked, behind.marked⟩,
      List.forall_mem_cons.mpr ⟨bound, behind.bound⟩⟩
    · rw [List.map_cons, List.pairwise_cons, List.forall_mem_map]
      exact ⟨behind.ahead, behind.ascending⟩
    · have later := behind.ahead other member
      omega

private theorem reached_cons (position : Nat) (marker : Marker) (markers : List Marker) :
    reached position (marker :: markers) = reached (marker.offset + 1) markers := by
  rw [reached, reached, List.getLast?_cons]
  cases markers.getLast? <;> rfl

/-- All markers can be served, or there is a first one that cannot. -/
theorem servable_or_offender (clean : Text) (bindings : Bindings) (position : Nat)
    (markers : List Marker) :
    Servable clean bindings position markers ∨
      ∃ front marker behind fault, markers = front ++ marker :: behind ∧
        Servable clean bindings position front ∧
        Offends clean bindings (reached position front) marker fault := by
  induction markers generalizing position with
  | nil => exact .inl (servable_nil clean bindings position)
  | cons marker markers ih =>
    rcases marker_cases clean bindings position marker with here | ⟨fault, offends⟩
    · rcases ih (marker.offset + 1) with
        servable | ⟨front, other, behind, fault, rfl, servable, offends⟩
      · exact .inl (servable_cons.mpr ⟨here, servable⟩)
      · refine .inr ⟨marker :: front, other, behind, fault, rfl,
          servable_cons.mpr ⟨here, servable⟩, ?_⟩
        rwa [reached_cons]
    · exact .inr ⟨[], marker, markers, fault, rfl, servable_nil clean bindings position, offends⟩

/-- The first marker that cannot be served stops the binding, whatever stands behind it. -/
theorem first_offender_stops (servable : Servable clean bindings position front)
    (offends : Offends clean bindings (reached position front) marker fault)
    (behind : List Marker) :
    Binding.substitute bindings clean.length position (clean.drop position)
      (front ++ marker :: behind) = .error fault := by
  induction front generalizing position with
  | nil => exact offender_stops offends behind
  | cons first front ih =>
    obtain ⟨⟨marked, ahead, literal, bound⟩, others⟩ := servable_cons.mp servable
    rw [reached_cons] at offends
    rw [List.cons_append, marker_served marked ahead bound, ih others offends]
    rfl

/-- No marker of these stands before their first position. -/
theorem no_marker_before (ahead : ∀ marker ∈ markers, position ≤ marker.offset)
    (before : place.2 < position) : boundChar bindings markers place = [place.1] := by
  have none : markers.find? (·.offset = place.2) = none := by
    rw [List.find?_eq_none]
    intro marker member
    have later := ahead marker member
    simp only [decide_eq_true_eq]
    omega
  rw [boundChar, none]

private theorem bound_char_here (bound : bindings.get? marker.id = some literal) (c : Char)
    (markers : List Marker) :
    boundChar bindings (marker :: markers) (c, marker.offset) = literal := by
  rw [boundChar, List.find?_cons_of_pos (by simp)]
  simp only [bound, Option.getD_some]

private theorem bound_char_behind (later : marker.offset < place.2) (markers : List Marker) :
    boundChar bindings (marker :: markers) place = boundChar bindings markers place := by
  rw [boundChar, boundChar,
    List.find?_cons_of_neg (by simp only [decide_eq_true_eq]; omega)]

/-- Markers that can be served are served character by character. -/
theorem servable_bound (servable : Servable clean bindings position markers) :
    Binding.substitute bindings clean.length position (clean.drop position) markers =
      .ok (((clean.drop position).zipIdx position).flatMap (boundChar bindings markers)) := by
  induction markers generalizing position with
  | nil =>
    have plain : boundChar bindings [] = fun place => [place.1] := rfl
    rw [Binding.substitute, plain, ← List.map_eq_flatMap, List.zipIdx_map_fst]
  | cons marker markers ih =>
    obtain ⟨⟨marked, ahead, literal, bound⟩, others⟩ := servable_cons.mp servable
    have parts : clean.drop position =
        (clean.drop position).take (marker.offset - position) ++
          '?' :: clean.drop (marker.offset + 1) := by
      rw [← drop_marked marked, ← drop_ahead ahead, List.take_append_drop]
    have width : ((clean.drop position).take (marker.offset - position)).length =
        marker.offset - position := by
      have inside := marked_inside marked
      rw [List.length_take, List.length_drop]
      omega
    have front : (((clean.drop position).take (marker.offset - position)).zipIdx position).flatMap
        (boundChar bindings (marker :: markers)) =
          (clean.drop position).take (marker.offset - position) := by
      have later : ∀ other ∈ marker :: markers, marker.offset ≤ other.offset :=
        List.forall_mem_cons.mpr
          ⟨Nat.le_refl _, fun other there => Nat.le_of_succ_le (others.ahead other there)⟩
      have plain : ∀ place ∈ ((clean.drop position).take (marker.offset - position)).zipIdx position,
          boundChar bindings (marker :: markers) place = [place.1] := by
        intro place member
        have before := (List.mem_zipIdx member).2.1
        apply no_marker_before later
        omega
      rw [List.flatMap_congr plain, ← List.map_eq_flatMap, List.zipIdx_map_fst]
    have rest : ((clean.drop (marker.offset + 1)).zipIdx (marker.offset + 1)).flatMap
        (boundChar bindings (marker :: markers)) =
          ((clean.drop (marker.offset + 1)).zipIdx (marker.offset + 1)).flatMap
            (boundChar bindings markers) := by
      refine List.flatMap_congr fun place member => bound_char_behind ?_ markers
      exact (List.mem_zipIdx member).1
    rw [marker_served marked ahead bound, ih others]
    conv_rhs => rw [parts]
    rw [List.zipIdx_append, List.flatMap_append, front, width, Nat.add_sub_cancel' ahead,
      List.zipIdx_cons, List.flatMap_cons, bound_char_here bound, rest, ← List.append_assoc]
    rfl

/-- Serving markers succeeds just when all of them can be served. -/
theorem substitute_ok_iff (clean : Text) (bindings : Bindings) (position : Nat)
    (markers : List Marker) :
    (∃ bound, Binding.substitute bindings clean.length position (clean.drop position) markers =
        .ok bound) ↔ Servable clean bindings position markers := by
  constructor
  · rintro ⟨bound, succeeds⟩
    rcases servable_or_offender clean bindings position markers with
      servable | ⟨front, marker, behind, fault, rfl, servable, offends⟩
    · exact servable
    · rw [first_offender_stops servable offends behind] at succeeds
      cases succeeds
  · intro servable
    exact ⟨_, servable_bound servable⟩

/-- Serving markers fails with a fault just when it is the one of the first marker that
cannot be served. -/
theorem substitute_error_iff (clean : Text) (bindings : Bindings) (position : Nat)
    (markers : List Marker) (fault : BindingFault) :
    Binding.substitute bindings clean.length position (clean.drop position) markers =
        .error fault ↔
      ∃ front marker behind, markers = front ++ marker :: behind ∧
        Servable clean bindings position front ∧
        Offends clean bindings (reached position front) marker fault := by
  constructor
  · intro fails
    rcases servable_or_offender clean bindings position markers with
      servable | ⟨front, marker, behind, first, rfl, servable, offends⟩
    · rw [servable_bound servable] at fails
      cases fails
    · rw [first_offender_stops servable offends behind] at fails
      cases fails
      exact ⟨front, marker, behind, rfl, servable, offends⟩
  · rintro ⟨front, marker, behind, rfl, servable, offends⟩
    exact first_offender_stops servable offends behind

/-! ## Whole texts -/

private theorem bind_counted (counted : bindings.size = markers.length) (clean : Text) :
    Binding.bind clean markers bindings =
      Binding.substitute bindings clean.length 0 (clean.drop 0) markers := by
  rw [Binding.bind, if_neg (not_not_intro counted), List.drop_zero]

private theorem bind_miscounted (miscounted : bindings.size ≠ markers.length) (clean : Text) :
    Binding.bind clean markers bindings = .error (.count markers.length bindings.size) := by
  rw [Binding.bind, if_pos miscounted]

theorem servable_iff (clean : Text) (bindings : Bindings) (markers : List Marker) :
    Servable clean bindings 0 markers ↔
      (markers.map Marker.offset).Pairwise (· < ·) ∧
        ∀ marker ∈ markers, marker.offset < clean.length ∧ clean[marker.offset]? = some '?' ∧
          ∃ literal, bindings.get? marker.id = some literal := by
  constructor
  · intro servable
    refine ⟨servable.ascending, fun marker member => ?_⟩
    have marked := servable.marked marker member
    exact ⟨marked_inside marked, marked, servable.bound marker member⟩
  · rintro ⟨ascending, served⟩
    exact ⟨ascending, fun marker _ => Nat.zero_le marker.offset,
      fun marker member => (served marker member).2.1,
      fun marker member => (served marker member).2.2⟩

/-- Binding succeeds just when there are as many literals as markers, the offsets of the
markers ascend and are those of question marks in the text, and every id of a marker has a
literal. The bound text is then the text with the literals of the markers in place of the
characters at their offsets. Otherwise the fault is the number of literals, if that is
wrong, or else it names the first marker that cannot be served, by the first check that it
fails. -/
theorem bind_is_exact (clean : Text) (markers : List Marker) (bindings : Bindings) :
    ((∃ bound, Binding.bind clean markers bindings = .ok bound) ↔
      bindings.size = markers.length ∧ (markers.map Marker.offset).Pairwise (· < ·) ∧
        ∀ marker ∈ markers, marker.offset < clean.length ∧ clean[marker.offset]? = some '?' ∧
          ∃ literal, bindings.get? marker.id = some literal) ∧
    (∀ bound, Binding.bind clean markers bindings = .ok bound →
      bound = clean.zipIdx.flatMap (boundChar bindings markers)) ∧
    ∀ fault, Binding.bind clean markers bindings = .error fault ↔
      bindings.size ≠ markers.length ∧ fault = .count markers.length bindings.size ∨
      bindings.size = markers.length ∧ ∃ front marker behind,
        markers = front ++ marker :: behind ∧ Servable clean bindings 0 front ∧
          Offends clean bindings (reached 0 front) marker fault := by
  by_cases counted : bindings.size = markers.length
  swap
  · rw [bind_miscounted counted]
    refine ⟨⟨?_, fun served => absurd served.1 counted⟩, ?_, fun fault => ⟨?_, ?_⟩⟩
    · rintro ⟨bound, succeeds⟩
      cases succeeds
    · intro bound succeeds
      cases succeeds
    · rintro ⟨⟩
      exact .inl ⟨counted, rfl⟩
    · rintro (⟨-, rfl⟩ | ⟨counted', -⟩)
      · rfl
      · exact absurd counted' counted
  rw [bind_counted counted]
  refine ⟨?_, fun bound succeeds => ?_, fun fault => ?_⟩
  · rw [substitute_ok_iff, servable_iff]
    exact (and_iff_right counted).symm
  · have servable := (substitute_ok_iff clean bindings 0 markers).mp ⟨bound, succeeds⟩
    rw [servable_bound servable] at succeeds
    exact (Except.ok.inj succeeds).symm
  · rw [substitute_error_iff]
    constructor
    · exact fun first => .inr ⟨counted, first⟩
    · rintro (⟨miscounted, -⟩ | ⟨-, first⟩)
      · exact absurd counted miscounted
      · exact first

/-- Offsets count characters, not bytes, and the question mark in a literal is bound to
nothing. The other way round, the second marker stands before the first. -/
theorem markers_are_served_in_order :
    let clean := "é? ?".toList
    let bindings := Bindings.ofList [(2, "1".toList), (7, "'?'".toList)]
    (∃ bound, Binding.bind clean [⟨7, 1⟩, ⟨2, 3⟩] bindings = .ok bound ∧
      bound = "é'?' 1".toList) ∧
      Binding.bind clean [⟨7, 3⟩, ⟨2, 1⟩] bindings = .error (.noMarker 2 1) := by
  intro clean bindings
  obtain ⟨succeeds, replaced, -⟩ := bind_is_exact clean [⟨7, 1⟩, ⟨2, 3⟩] bindings
  obtain ⟨-, -, faults⟩ := bind_is_exact clean [⟨7, 3⟩, ⟨2, 1⟩] bindings
  have served : ∀ marker ∈ [Marker.mk 7 1, ⟨2, 3⟩], marker.offset < clean.length ∧
      clean[marker.offset]? = some '?' ∧
        ∃ literal, bindings.get? marker.id = some literal := by
    simp only [List.mem_cons, List.not_mem_nil, or_false, forall_eq_or_imp, forall_eq]
    exact ⟨⟨by decide, rfl, _, rfl⟩, by decide, rfl, _, rfl⟩
  have first : Servable clean bindings 0 [⟨7, 3⟩] :=
    servable_cons.mpr ⟨⟨rfl, Nat.zero_le _, _, rfl⟩, servable_nil clean bindings _⟩
  have before : Offends clean bindings (reached 0 [⟨7, 3⟩]) ⟨2, 1⟩ (.noMarker 2 1) :=
    .noMarker (by decide) (.inr (by decide))
  obtain ⟨bound, ok⟩ := succeeds.mpr ⟨rfl, by decide, served⟩
  exact ⟨⟨bound, ok, (replaced bound ok).trans rfl⟩,
    (faults _).mpr (.inr ⟨rfl, [⟨7, 3⟩], ⟨2, 1⟩, [], rfl, first, before⟩)⟩

end SqlWire.RawBinding
