import SqlWire.Proofs.Splitting
import SqlWire.Proofs.Substitution
import Mathlib.Data.List.Range
import Mathlib.Data.List.Perm.Subperm

/-! Binding a whole script. The markers that analysis leaves stand in order at question
marks, so serving them can only fail for want of a literal. The ids of the whole script
are those of its statements one behind the other, and binding succeeds for exactly the
maps that have these ids as their keys. -/
namespace SqlWire.ScriptBinding
open Lexeme Cleaning Substitution Splitting

/-! ## Places of markers -/

/-- Markers in their order, each at a question mark of a text that begins at character
`position`. -/
inductive Placed : (position : Nat) → Text → List Marker → Prop where
  | none : Placed position rest []
  | marker (place : marker.offset = position + front.length)
      (behind : Placed (marker.offset + 1) rest markers) :
      Placed position (front ++ '?' :: rest) (marker :: markers)

/-- A text with a literal in the place of each marker, and with every other character
as it was. -/
inductive Filled : (position : Nat) → Text → List Marker → List Text → Text → Prop where
  | rest : Filled position rest [] [] rest
  | marker (place : marker.offset = position + front.length)
      (behind : Filled (marker.offset + 1) rest markers literals bound) :
      Filled position (front ++ '?' :: rest) (marker :: markers) (literal :: literals)
        (front ++ literal ++ bound)

private theorem placed_behind (front : Text)
    (placed : Placed (position + front.length) rest markers) :
    Placed position (front ++ rest) markers := by
  cases placed with
  | none => exact .none
  | @marker _ rest markers inner marker place behind =>
    rw [← List.append_assoc]
    apply Placed.marker _ behind
    rw [place, List.length_append, Nat.add_assoc]

/-- The markers of settled lexemes stand in their text. -/
theorem settled_placed (settled : ∀ lexeme ∈ lexemes, Settled lexeme) (next position : Nat) :
    Placed position (sourceOf lexemes)
      (Statement.numberMarkers 0 next (markersOf position lexemes)) := by
  induction lexemes generalizing next position with
  | nil => exact .none
  | cons lexeme lexemes ih =>
    obtain ⟨here, others⟩ := List.forall_mem_cons.mp settled
    have front : sourceOf (lexeme :: lexemes) = lexeme.source ++ sourceOf lexemes := by
      simp [sourceOf]
    by_cases marker : lexeme = .char '?'
    · subst marker
      have marks : markersOf position (.char '?' :: lexemes) =
          position :: markersOf (position + 1) lexemes := rfl
      have first : Placed position ([] ++ '?' :: sourceOf lexemes)
          (Statement.numberMarkers 0 next (position :: markersOf (position + 1) lexemes)) :=
        .marker rfl (ih others (next + 1) (position + 1))
      rw [front, marks]
      exact first
    · have same : lexeme.clean = lexeme.source := by
        cases here <;> rfl
      have marks : markersOf position (lexeme :: lexemes) =
          markersOf (position + lexeme.source.length) lexemes := by
        simp [markersOf, isMarker, marker, same]
      rw [front, marks]
      exact placed_behind lexeme.source (ih others next _)

/-- Serving placed markers fills them, or a literal is missing. -/
theorem substitute_placed (bindings : Bindings) (placed : Placed position rest markers)
    (whole : length = position + rest.length) :
    (∃ literals bound, Binding.substitute bindings length position rest markers = .ok bound ∧
        Filled position rest markers literals bound ∧
        literals.map some = markers.map (bindings.get? ·.id)) ∨
      ∃ marker ∈ markers, bindings.get? marker.id = none ∧
        Binding.substitute bindings length position rest markers = .error (.missing marker.id) := by
  induction placed with
  | none => exact .inl ⟨[], _, rfl, .rest, rfl⟩
  | @marker position rest markers front marker place behind ih =>
    rw [List.length_append, List.length_cons] at whole
    have inside : ¬ length ≤ marker.offset := by omega
    have ordered : ¬ marker.offset < position := by omega
    have width : marker.offset - position = front.length := by omega
    have here : (front ++ '?' :: rest).drop (marker.offset - position) = '?' :: rest := by
      rw [width, List.drop_left]
    have before : (front ++ '?' :: rest).take (marker.offset - position) = front := by
      rw [width, List.take_left]
    unfold Binding.substitute
    rw [if_neg inside, if_neg ordered, here, before]
    cases found : bindings.get? marker.id with
    | none => exact .inr ⟨marker, List.mem_cons_self, found, rfl⟩
    | some literal =>
      rcases ih (by omega) with ⟨literals, bound, served, filled, same⟩ |
        ⟨other, member, unbound, missing⟩
      · refine .inl ⟨literal :: literals, front ++ literal ++ bound, ?_, .marker place filled, ?_⟩
        · simp [served, Except.map]
        · rw [List.map_cons, List.map_cons, same, found]
      · refine .inr ⟨other, List.mem_cons_of_mem _ member, unbound, ?_⟩
        simp [missing, Except.map]

/-! ## Statements -/

/-- A statement as analysis leaves it: its markers are the question marks of its clean
text outside quotes, numbered from one. -/
structure Analysed (statement : Statement) : Prop where
  numbered : statement.markers.map Marker.id = List.range' 1 statement.markerCount
  lexical : statement.markers.map Marker.offset = markersOf 0 (ofText statement.clean)
  placed : Placed 0 statement.clean statement.markers

private theorem clean_analysed (clean : IsClean lexemes) (text : statement.clean = sourceOf lexemes)
    (markers : statement.markers = Statement.numberMarkers 0 1 (markersOf 0 lexemes)) :
    Analysed statement := by
  refine ⟨(clean_marked clean text markers).numbered, ?_, ?_⟩
  · rw [text, clean_reads clean, markers, numbered_offsets]
  · rw [text, markers]
    exact settled_placed clean.settled 1 0

private theorem split_analysed (ok : Script.split sql = .ok script) :
    ∀ statement ∈ script.statements, Analysed statement := by
  intro statement member
  obtain ⟨lexemes, clean, text, markers, -⟩ := split_statement ok member
  exact clean_analysed clean text markers

private theorem analyze_analysed (ok : Statement.analyze sql = .ok statement) :
    Analysed statement := by
  obtain ⟨lexemes, clean, text, markers, -⟩ := analyze_statement ok
  exact clean_analysed clean text markers

/-- The ids of a statement are those up to the number of its markers. -/
theorem id_bounds (analysed : Analysed statement) (member : marker ∈ statement.markers) :
    1 ≤ marker.id ∧ marker.id ≤ statement.markerCount := by
  have within : marker.id ∈ List.range' 1 statement.markerCount := by
    rw [← analysed.numbered]
    exact List.mem_map_of_mem member
  rw [List.mem_range'_1] at within
  omega

/-- Binding an analysed statement fills its markers; it fails only for the number of
literals or for want of one. -/
theorem statement_binds (analysed : Analysed statement) (bindings : Bindings) :
    (∃ literals bound, statement.bind bindings = .ok bound ∧
        Filled 0 statement.clean statement.markers literals bound ∧
        literals.map some = statement.markers.map (bindings.get? ·.id)) ∨
      bindings.size ≠ statement.markerCount ∧
        statement.bind bindings = .error (.count statement.markerCount bindings.size) ∨
      ∃ marker ∈ statement.markers, bindings.get? marker.id = none ∧
        statement.bind bindings = .error (.missing marker.id) := by
  unfold Statement.bind Binding.bind
  by_cases count : bindings.size = statement.markers.length
  · rw [if_neg (not_not_intro count)]
    rcases substitute_placed bindings analysed.placed (Nat.zero_add _).symm with served | missing
    · exact .inl served
    · exact .inr (.inr missing)
  · rw [if_pos count]
    exact .inr (.inl ⟨count, rfl⟩)

/-! ## Shares of a script-wide map -/

/-- The share of a statement has the literals of its markers, and no others. -/
theorem local_bindings (bindings : Bindings) (base : Nat)
    (distinct : (markers.map Marker.id).Nodup) :
    (∃ share, Script.localBindings bindings base markers = .ok share ∧
        share.size = markers.length ∧ (∀ id ∉ markers.map Marker.id, share.get? id = none) ∧
        ∀ marker ∈ markers, share.get? marker.id = bindings.get? (base + marker.id) ∧
          (bindings.get? (base + marker.id)).isSome) ∨
      ∃ marker ∈ markers, bindings.get? (base + marker.id) = none ∧
        Script.localBindings bindings base markers = .error (.missing (base + marker.id)) := by
  induction markers with
  | nil => exact .inl ⟨Bindings.empty, rfl, rfl, fun _ _ => rfl, by simp⟩
  | cons marker markers ih =>
    rw [List.map_cons, List.nodup_cons] at distinct
    obtain ⟨apart, distinctBehind⟩ := distinct
    unfold Script.localBindings
    cases found : bindings.get? (base + marker.id) with
    | none => exact .inr ⟨marker, List.mem_cons_self, found, rfl⟩
    | some literal =>
      rcases ih distinctBehind with ⟨share, shared, size, others, same⟩ |
        ⟨other, member, unbound, missing⟩
      · refine .inl ⟨share.insert marker.id literal, by simp [shared, Except.map], ?_, ?_, ?_⟩
        · rw [size_insert share (others _ apart), size, List.length_cons]
        · intro id absent
          rw [List.map_cons, List.mem_cons, not_or] at absent
          rw [get_insert, if_neg absent.1]
          exact others id absent.2
        · intro other member
          rw [get_insert]
          by_cases here : other.id = marker.id
          · rw [if_pos here, here, found]
            exact ⟨rfl, rfl⟩
          · rw [if_neg here]
            apply same
            rcases List.mem_cons.mp member with rfl | behind
            · exact absurd rfl here
            · exact behind
      · refine .inr ⟨other, List.mem_cons_of_mem _ member, unbound, ?_⟩
        simp [missing, Except.map]

/-- Texts of statements whose markers count from behind `base`: each is filled with the
literals that the map has under the ids of its own markers. -/
inductive Bound (bindings : Bindings) : (base : Nat) → List Statement → List Text → Prop where
  | none : Bound bindings base [] []
  | statement (filled : Filled 0 statement.clean statement.markers literals text)
      (served : literals.map some =
        (List.range' (base + 1) statement.markerCount).map bindings.get?)
      (behind : Bound bindings (base + statement.markerCount) statements texts) :
      Bound bindings base (statement :: statements) (text :: texts)

/-- One statement is bound to its share, or a literal of its markers is missing. -/
theorem share_binds (analysed : Analysed statement) (bindings : Bindings) (base : Nat) :
    (∃ share literals text, Script.localBindings bindings base statement.markers = .ok share ∧
        statement.bind share = .ok text ∧
        Filled 0 statement.clean statement.markers literals text ∧
        literals.map some = (List.range' (base + 1) statement.markerCount).map bindings.get?) ∨
      ∃ id, base < id ∧ id ≤ base + statement.markerCount ∧ bindings.get? id = none ∧
        Script.localBindings bindings base statement.markers = .error (.missing id) := by
  have distinct : (statement.markers.map Marker.id).Nodup := by
    rw [analysed.numbered]
    exact List.nodup_range'
  rcases local_bindings bindings base distinct with ⟨share, shared, size, -, same⟩ |
    ⟨marker, member, unbound, missing⟩
  · refine .inl ?_
    rcases statement_binds analysed share with ⟨literals, text, bound, filled, served⟩ |
      ⟨differs, -⟩ | ⟨marker, member, unbound, -⟩
    · refine ⟨share, literals, text, shared, bound, filled, ?_⟩
      have ids : List.range' (base + 1) statement.markerCount =
          statement.markers.map (base + ·.id) := by
        rw [← List.map_add_range' , ← analysed.numbered, List.map_map]
        rfl
      rw [served, ids, List.map_map]
      exact List.map_congr_left fun marker member => (same marker member).1
    · exact absurd size differs
    · obtain ⟨found, some⟩ := same marker member
      rw [← found, unbound] at some
      cases some
  · obtain ⟨least, most⟩ := id_bounds analysed member
    exact .inr ⟨base + marker.id, by omega, by omega, unbound, missing⟩

/-- Statements are bound one behind the other, up to the first literal that is missing. -/
theorem statements_bind (analysed : ∀ statement ∈ statements, Analysed statement)
    (bindings : Bindings) (base : Nat) :
    (∃ texts, Script.bindFrom bindings base statements = .ok texts ∧
        Bound bindings base statements texts) ∨
      ∃ id, base < id ∧ id ≤ base + (Script.mk statements).totalMarkers ∧
        bindings.get? id = none ∧
        Script.bindFrom bindings base statements = .error (.missing id) := by
  induction statements generalizing base with
  | nil => exact .inl ⟨[], rfl, .none⟩
  | cons statement statements ih =>
    obtain ⟨here, others⟩ := List.forall_mem_cons.mp analysed
    have total : (Script.mk (statement :: statements)).totalMarkers =
        statement.markerCount + (Script.mk statements).totalMarkers := rfl
    unfold Script.bindFrom
    rcases share_binds here bindings base with
      ⟨share, literals, text, shared, bound, filled, served⟩ | ⟨id, least, most, unbound, missing⟩
    · rcases ih others (base + statement.markerCount) with
        ⟨texts, boundOthers, behind⟩ | ⟨id, least, most, unbound, missing⟩
      · refine .inl ⟨text :: texts, ?_, .statement filled served behind⟩
        simp [shared, bound, boundOthers, bind, Except.bind]
      · refine .inr ⟨id, by omega, by omega, unbound, ?_⟩
        simp [shared, bound, missing, bind, Except.bind]
    · refine .inr ⟨id, least, by omega, unbound, ?_⟩
      simp [missing, bind, Except.bind]

private theorem literals_served {bindings : Bindings} {literals : List Text} {ids : List Nat}
    (served : literals.map some = ids.map bindings.get?) :
    literals.length = ids.length ∧ ∀ id ∈ ids, ∃ literal, bindings.get? id = some literal := by
  constructor
  · simpa using congrArg List.length served
  · intro id member
    have found : bindings.get? id ∈ literals.map some := by
      rw [served]
      exact List.mem_map_of_mem member
    obtain ⟨literal, -, same⟩ := List.mem_map.mp found
    exact ⟨literal, same.symm⟩

/-- Where all texts are bound, the map has a literal for every id. -/
theorem bound_keys (bound : Bound bindings base statements texts) :
    ∀ id, base < id → id ≤ base + (Script.mk statements).totalMarkers →
      ∃ literal, bindings.get? id = some literal := by
  induction bound with
  | none =>
    intro id least most
    have nothing : (Script.mk []).totalMarkers = 0 := rfl
    omega
  | @statement literals text base statements texts statement filled served behind ih =>
    intro id least most
    have total : (Script.mk (statement :: statements)).totalMarkers =
        statement.markerCount + (Script.mk statements).totalMarkers := rfl
    by_cases here : id ≤ base + statement.markerCount
    · apply (literals_served served).2
      rw [List.mem_range'_1]
      omega
    · exact ih id (by omega) (by omega)

/-- The text of each statement is filled with the literals under its own ids, which count
on from those of all statements before it. -/
theorem bound_each (bound : Bound bindings base statements texts) :
    texts.length = statements.length ∧
      ∀ i statement text, statements[i]? = some statement → texts[i]? = some text →
        ∃ literals, Filled 0 statement.clean statement.markers literals text ∧
          literals.length = statement.markerCount ∧
          ∀ j < statement.markerCount, literals[j]? =
            bindings.get? (base + (Script.mk (statements.take i)).totalMarkers + j + 1) := by
  induction bound with
  | none => exact ⟨rfl, by simp⟩
  | @statement literals text base statements texts statement filled served behind ih =>
    obtain ⟨count, each⟩ := ih
    refine ⟨congrArg (· + 1) count, ?_⟩
    intro i own out atStatements atTexts
    cases i with
    | zero =>
      obtain rfl : statement = own := Option.some.inj atStatements
      obtain rfl : text = out := Option.some.inj atTexts
      have width := (literals_served served).1
      rw [List.length_range'] at width
      refine ⟨literals, filled, width, ?_⟩
      intro j inside
      have nothing : (Script.mk ((statement :: statements).take 0)).totalMarkers = 0 := rfl
      have same := congrArg (·[j]?) served
      simp only [List.getElem?_map, List.getElem?_range' inside, Option.map_some] at same
      obtain ⟨literal, here, found⟩ := Option.map_eq_some_iff.mp same
      rw [here, found, nothing, show base + 1 + 1 * j = base + 0 + j + 1 by omega]
    | succ i =>
      obtain ⟨own, filledOn, width, found⟩ := each i own out atStatements atTexts
      refine ⟨own, filledOn, width, ?_⟩
      intro j inside
      have total : (Script.mk ((statement :: statements).take (i + 1))).totalMarkers =
          statement.markerCount + (Script.mk (statements.take i)).totalMarkers := rfl
      rw [found j inside, total, Nat.add_assoc base]

/-! ## Keys -/

private theorem bound_iff_key (bindings : Bindings) (id : Nat) :
    (∃ literal, bindings.get? id = some literal) ↔ id ∈ bindings.entries.map Prod.fst := by
  rw [← Option.isSome_iff_exists, Bindings.get?, List.lookup_isSome_iff, List.mem_map]
  simp only [beq_iff_eq, eq_comm (a := id)]

/-- A map of as many literals as there are ids, with one for each id, has no other keys;
and a map with just these keys has as many literals. -/
theorem keys_counted (bindings : Bindings) (total : Nat) :
    (bindings.size = total ∧
        ∀ id, 0 < id → id ≤ total → ∃ literal, bindings.get? id = some literal) ↔
      ∀ id, (∃ literal, bindings.get? id = some literal) ↔ 1 ≤ id ∧ id ≤ total := by
  have count : (bindings.entries.map Prod.fst).length = bindings.size := List.length_map ..
  constructor
  · rintro ⟨size, bound⟩
    have inside : List.range' 1 total ⊆ bindings.entries.map Prod.fst := by
      intro id member
      rw [List.mem_range'_1] at member
      exact (bound_iff_key bindings id).mp (bound id (by omega) (by omega))
    have same : (List.range' 1 total).Perm (bindings.entries.map Prod.fst) := by
      apply (List.subperm_of_subset List.nodup_range' inside).perm_of_length_le
      rw [count, size, List.length_range']
    intro id
    rw [bound_iff_key, ← same.mem_iff, List.mem_range'_1]
    omega
  · intro keys
    have same : (bindings.entries.map Prod.fst).Perm (List.range' 1 total) := by
      apply (List.perm_ext_iff_of_nodup bindings.distinct List.nodup_range').mpr
      intro id
      rw [← bound_iff_key, keys, List.mem_range'_1]
      omega
    constructor
    · rw [← count, same.length_eq, List.length_range']
    · intro id least most
      exact (keys id).mpr ⟨least, most⟩

/-! ## Scripts -/

/-- Binding a split script succeeds, or there are more or fewer literals than markers, or
the literal of a marker is missing. -/
theorem bind_all_cases (ok : Script.split sql = .ok script) (bindings : Bindings) :
    (∃ texts, script.bindAll bindings = .ok texts ∧ bindings.size = script.totalMarkers ∧
        Bound bindings 0 script.statements texts) ∨
      bindings.size ≠ script.totalMarkers ∧
        script.bindAll bindings = .error (.scriptCount script.totalMarkers bindings.size) ∨
      ∃ id, 0 < id ∧ id ≤ script.totalMarkers ∧ bindings.get? id = none ∧
        script.bindAll bindings = .error (.missing id) := by
  unfold Script.bindAll
  by_cases count : bindings.size = script.totalMarkers
  · rw [if_neg (not_not_intro count)]
    rcases statements_bind (split_analysed ok) bindings 0 with
      ⟨texts, served, bound⟩ | ⟨id, least, most, unbound, missing⟩
    · exact .inl ⟨texts, served, count, bound⟩
    · rw [Nat.zero_add] at most
      exact .inr (.inr ⟨id, least, most, unbound, missing⟩)
  · rw [if_pos count]
    exact .inr (.inl ⟨count, rfl⟩)

/-- Binding succeeds where there are as many literals as markers and none is missing. -/
theorem bind_all_succeeds (ok : Script.split sql = .ok script) (bindings : Bindings) :
    (∃ texts, script.bindAll bindings = .ok texts) ↔
      bindings.size = script.totalMarkers ∧
        ∀ id, 0 < id → id ≤ script.totalMarkers → ∃ literal, bindings.get? id = some literal := by
  rcases bind_all_cases ok bindings with
    ⟨texts, served, size, bound⟩ | ⟨differs, failed⟩ | ⟨id, least, most, unbound, failed⟩
  · refine ⟨fun _ => ⟨size, fun id least most => ?_⟩, fun _ => ⟨texts, served⟩⟩
    apply bound_keys bound id least
    rwa [Nat.zero_add]
  · constructor
    · rintro ⟨texts, served⟩
      rw [failed] at served
      cases served
    · rintro ⟨size, -⟩
      exact absurd size differs
  · constructor
    · rintro ⟨texts, served⟩
      rw [failed] at served
      cases served
    · rintro ⟨-, bound⟩
      obtain ⟨literal, found⟩ := bound id least most
      rw [unbound] at found
      cases found

/-- Every way in which binding an analysed statement fails. -/
theorem statement_faults (analysed : Analysed statement)
    (failed : statement.bind bindings = .error fault) :
    fault = .count statement.markerCount bindings.size ∨
      ∃ id, 1 ≤ id ∧ id ≤ statement.markerCount ∧ fault = .missing id := by
  rcases statement_binds analysed bindings with
    ⟨literals, text, served, -⟩ | ⟨-, counted⟩ | ⟨marker, member, -, missing⟩
  · rw [served] at failed
    cases failed
  · exact .inl (Except.error.inj (failed.symm.trans counted))
  · obtain ⟨least, most⟩ := id_bounds analysed member
    exact .inr ⟨marker.id, least, most, Except.error.inj (failed.symm.trans missing)⟩

/-- Binding a split script succeeds for exactly the maps whose keys are the ids from one
to the number of markers. It gives one text for each statement, with the literals in the
places of its markers and all else as it was, where the markers of a statement count on
from those before it. Otherwise the number of literals is wrong, or the literal of a
marker is missing: no analysed statement has a marker out of place. -/
theorem script_binds_exactly (ok : Script.split sql = .ok script) (bindings : Bindings) :
    ((∃ texts, script.bindAll bindings = .ok texts) ↔
      ∀ id, (∃ literal, bindings.get? id = some literal) ↔ 1 ≤ id ∧ id ≤ script.totalMarkers) ∧
    (∀ texts, script.bindAll bindings = .ok texts →
      texts.length = script.statements.length ∧
      ∀ i statement text, script.statements[i]? = some statement → texts[i]? = some text →
        ∃ literals, Filled 0 statement.clean statement.markers literals text ∧
          literals.length = statement.markerCount ∧
          ∀ j < statement.markerCount, literals[j]? =
            bindings.get? ((Script.mk (script.statements.take i)).totalMarkers + j + 1)) ∧
    (∀ fault, script.bindAll bindings = .error fault →
      fault = .scriptCount script.totalMarkers bindings.size ∨
      ∃ id, 1 ≤ id ∧ id ≤ script.totalMarkers ∧ bindings.get? id = none ∧
        fault = .missing id) ∧
    ∀ statement, statement ∈ script.statements ∨ Statement.analyze sql = .ok statement →
      statement.markers.map Marker.id = List.range' 1 statement.markerCount ∧
      statement.markers.map Marker.offset = markersOf 0 (ofText statement.clean) ∧
      ∀ own fault, statement.bind own = .error fault →
        fault = .count statement.markerCount own.size ∨
        ∃ id, 1 ≤ id ∧ id ≤ statement.markerCount ∧ fault = .missing id := by
  refine ⟨(bind_all_succeeds ok bindings).trans (keys_counted bindings _), ?_, ?_, ?_⟩
  · intro texts served
    rcases bind_all_cases ok bindings with
      ⟨texts', served', -, bound⟩ | ⟨-, failed⟩ | ⟨id, -, -, -, failed⟩
    · obtain rfl : texts' = texts := Except.ok.inj (served'.symm.trans served)
      simpa using bound_each bound
    · rw [failed] at served
      cases served
    · rw [failed] at served
      cases served
  · intro fault failed
    rcases bind_all_cases ok bindings with
      ⟨texts, served, -⟩ | ⟨-, failed'⟩ | ⟨id, least, most, unbound, failed'⟩
    · rw [served] at failed
      cases failed
    · exact .inl (Except.error.inj (failed.symm.trans failed'))
    · exact .inr ⟨id, least, most, unbound, Except.error.inj (failed.symm.trans failed')⟩
  · intro statement found
    have analysed : Analysed statement := found.elim (split_analysed ok statement) analyze_analysed
    exact ⟨analysed.numbered, analysed.lexical, fun own fault failed =>
      statement_faults analysed failed⟩

/-- Three ids over two statements. The question marks in quotes, in a comment and in a
literal are left alone, and a map of three literals with a wrong id is refused. -/
theorem small_script_binds :
    let sql := "insert '?', ?; select ?, ? --?".toList
    let first : Statement :=
      ⟨"insert '?', ?".toList, "insert '?', ?".toList, 0, 13, [⟨1, 12⟩], .nonQuery⟩
    let second : Statement :=
      ⟨" select ?, ? --?".toList, "select ?, ?".toList, 14, 30, [⟨1, 7⟩, ⟨2, 10⟩],
        .query none none⟩
    let bindings := Bindings.ofList [(3, "7".toList), (1, "'?;'".toList), (2, "?".toList)]
    let shifted := Bindings.ofList [(0, "7".toList), (1, "'?;'".toList), (2, "?".toList)]
    let script : Script := ⟨[first, second]⟩
    Script.split sql = .ok script ∧
      script.bindAll bindings = .ok ["insert '?', '?;'".toList, "select ?, 7".toList] ∧
      (∀ id, (∃ literal, bindings.get? id = some literal) ↔ 1 ≤ id ∧ id ≤ 3) ∧
      script.bindAll shifted = .error (.missing 3) ∧
      ¬ ∀ id, (∃ literal, shifted.get? id = some literal) ↔ 1 ≤ id ∧ id ≤ 3 := by
  intro sql first second bindings shifted script
  have ok : Script.split sql = .ok script := by decide +kernel
  have bound : script.bindAll bindings =
      .ok ["insert '?', '?;'".toList, "select ?, 7".toList] := by decide +kernel
  have refused : script.bindAll shifted = .error (.missing 3) := by decide +kernel
  refine ⟨ok, bound, (script_binds_exactly ok bindings).1.mp ⟨_, bound⟩, refused, ?_⟩
  intro keys
  obtain ⟨texts, served⟩ := (script_binds_exactly ok shifted).1.mpr keys
  rw [refused] at served
  cases served

end SqlWire.ScriptBinding
