import Mathlib.Data.List.Basic

/-! Results of steps that can fail: which of them the whole ends with. -/

namespace Bindery
variable {ε δ α β : Type}

section
variable {result : Except ε α} {f : ε → δ}

theorem mapError_eq_ok {value : α} : result.mapError f = .ok value ↔ result = .ok value := by
  cases result <;> simp [Except.mapError]

theorem mapError_eq_error {other : δ} :
    result.mapError f = .error other ↔ ∃ error, result = .error error ∧ f error = other := by
  cases result <;> simp [Except.mapError]

theorem mapError_ne_error {other : δ} (each : ∀ error, f error ≠ other) (result : Except ε α) :
    result.mapError f ≠ .error other := by
  intro failed
  obtain ⟨error, _, same⟩ := mapError_eq_error.mp failed
  exact each error same

end

section
variable {first : Except ε α} {next : α → Except ε β}

theorem bind_eq_ok {result : β} : first.bind next = .ok result ↔ ∃ value, first = .ok value ∧ next value = .ok result := by
  cases first <;> simp [Except.bind]

theorem exists_bind_eq_ok :
    (∃ result, first.bind next = .ok result) ↔ ∃ value, first = .ok value ∧ ∃ result, next value = .ok result := by
  simp only [bind_eq_ok, exists_comm (α := β), exists_and_left]

theorem bind_eq_error {error : ε} :
    first.bind next = .error error ↔ first = .error error ∨ ∃ value, first = .ok value ∧ next value = .error error := by
  cases first <;> simp [Except.bind]

theorem bind_ne_error {error : ε} (begins : first ≠ .error error) (goes : ∀ value, next value ≠ .error error) :
    first.bind next ≠ .error error := by
  cases first with
  | error other => exact fun same => begins (congrArg _ (Except.error.inj same))
  | ok value => exact goes value

end

section
variable {f : α → Except ε β}

theorem exists_mapM_eq_ok {items : List α} :
    (∃ results, items.mapM f = .ok results) ↔ ∀ item ∈ items, ∃ result, f item = .ok result := by
  induction items with
  | nil => exact ⟨fun _ item member => absurd member List.not_mem_nil, fun _ => ⟨[], rfl⟩⟩
  | cons item rest ih =>
    rw [List.mapM_cons, List.forall_mem_cons, ← ih]
    cases f item with
    | error error => simp [bind, Except.bind]
    | ok first => cases rest.mapM f <;> simp [bind, Except.bind, pure, Except.pure]

theorem mapM_ne_error {error : ε} (each : ∀ item, f item ≠ .error error) (items : List α) :
    items.mapM f ≠ .error error := by
  induction items with
  | nil => exact nofun
  | cons item items ih =>
    rw [List.mapM_cons]
    exact bind_ne_error (each item) fun _ => bind_ne_error ih fun _ => nofun

end

/-! ### Results that are evaluated, or as much of them as can be compared -/

section
variable {result : Except ε α}

theorem eq_ok_of_toOption {value : α} (found : result.toOption = some value) : result = .ok value := by
  cases result <;> cases found
  rfl

theorem exists_ok_of_any {shape : α → Bool} (shaped : result.toOption.any shape = true) :
    ∃ value, result = .ok value ∧ shape value = true := by
  cases result with
  | error error => cases shaped
  | ok value => exact ⟨value, rfl, shaped⟩

end
end Bindery
