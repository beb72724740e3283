/-! What the outcome of a composed reader says of the readers it is composed of. -/
namespace SqlWire.Outcomes

variable {result : Except ε α}

theorem map_ok {f : α → β} (ok : result.map f = .ok value) :
    ∃ found, result = .ok found ∧ value = f found := by
  cases result with
  | error fault => cases ok
  | ok found =>
    cases ok
    exact ⟨found, rfl, rfl⟩

theorem map_error {f : α → β} (error : result.map f = .error fault) : result = .error fault := by
  cases result with
  | error other =>
    cases error
    rfl
  | ok found => cases error

theorem map_error_ok {f : ε → ε'} : result.mapError f = .ok value ↔ result = .ok value := by
  constructor
  · intro ok
    cases result with
    | error fault => cases ok
    | ok found =>
      cases ok
      rfl
  · rintro rfl
    rfl

theorem bind_ok {next : α → Except ε β} (ok : result >>= next = .ok value) :
    ∃ found, result = .ok found ∧ next found = .ok value := by
  cases result with
  | error fault => cases ok
  | ok found => exact ⟨found, rfl, ok⟩

/-- A fault comes from the first reader, or from what follows it. -/
theorem bind_error {next : α → Except ε β} (error : result >>= next = .error fault) :
    result = .error fault ∨ ∃ found, result = .ok found ∧ next found = .error fault := by
  cases result with
  | error other =>
    cases error
    exact .inl rfl
  | ok found => exact .inr ⟨found, rfl, error⟩

/-! ## Every item of a list -/

/-- One item without a result leaves none for the list. -/
theorem one_none_iff {f : α → Option β} {items : List α} :
    items.mapM f = none ↔ ∃ item ∈ items, f item = none := by
  induction items with
  | nil => simp
  | cons item items ih =>
    simp only [List.mapM_cons, List.mem_cons, or_and_right, exists_or, exists_eq_left, ← ih]
    cases f item <;> cases items.mapM f <;> simp

end SqlWire.Outcomes
