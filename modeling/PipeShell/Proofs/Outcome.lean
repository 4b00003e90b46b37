import Mathlib.Data.List.Forall2

/-!
# Outcomes

What it means that a chain of steps, or one step taken on every entry of a list, gives a value.
-/

set_option autoImplicit false

namespace PipeShell

variable {ε α β : Type}

theorem bind_eq_ok_iff {first : Except ε α} {next : α → Except ε β} {value : β} :
    (first >>= next) = .ok value ↔ ∃ middle, first = .ok middle ∧ next middle = .ok value := by
  cases first with
  | error cause => simp [bind, Except.bind]
  | ok middle => simp [bind, Except.bind]

theorem bind_eq_error_iff {first : Except ε α} {next : α → Except ε β} {cause : ε} :
    (first >>= next) = .error cause ↔
      first = .error cause ∨ ∃ middle, first = .ok middle ∧ next middle = .error cause := by
  cases first with
  | error other => simp [bind, Except.bind]
  | ok middle => simp [bind, Except.bind]

theorem map_eq_ok_iff {f : α → β} {outcome : Except ε α} {value : β} :
    outcome.map f = .ok value ↔ ∃ found, outcome = .ok found ∧ f found = value := by
  cases outcome with
  | error cause => simp [Except.map]
  | ok found => simp [Except.map]

/-- A step taken on every entry gives a list just when it gives each of its entries. -/
theorem mapM_eq_ok_iff {f : α → Except ε β} {entries : List α} {values : List β} :
    entries.mapM f = .ok values ↔ List.Forall₂ (fun x y => f x = .ok y) entries values := by
  induction entries generalizing values with
  | nil => cases values <;> simp [pure, Except.pure]
  | cons x entries ih =>
      rw [List.mapM_cons, bind_eq_ok_iff]
      constructor
      · rintro ⟨y, first, rest⟩
        obtain ⟨ys, others, last⟩ := bind_eq_ok_iff.mp rest
        cases last
        exact List.Forall₂.cons first (ih.mp others)
      · intro each
        cases each with
        | cons first others =>
            exact ⟨_, first, bind_eq_ok_iff.mpr ⟨_, ih.mpr others, rfl⟩⟩

/-- Steps that agree on every two entries in the same place agree on the lists. -/
theorem mapM_zipIdx_congr {γ : Type} {f : α × Nat → Except ε β} {g : γ × Nat → Except ε β}
    {left : List α} {right : List γ}
    (same : List.Forall₂ (fun x y => ∀ i, f (x, i) = g (y, i)) left right) (start : Nat) :
    (left.zipIdx start).mapM f = (right.zipIdx start).mapM g := by
  induction same generalizing start with
  | nil => rfl
  | cons first _ ih =>
      rw [List.zipIdx_cons, List.zipIdx_cons, List.mapM_cons, List.mapM_cons, first, ih]

/-- A step that gives a value of `g` wherever it gives any gives the list of these. -/
theorem mapM_eq_ok_iff_map {f : α → Except ε β} {P : α → Prop} {g : α → β}
    (step : ∀ x y, f x = .ok y ↔ P x ∧ g x = y) {entries : List α} {values : List β} :
    entries.mapM f = .ok values ↔ (∀ x ∈ entries, P x) ∧ entries.map g = values := by
  rw [mapM_eq_ok_iff]
  simp only [step]
  rw [List.forall₂_and_left, ← List.forall₂_map_left_iff, List.forall₂_eq_eq_eq]

/-- Steps that can fail for one cause only fail together for that cause. -/
theorem mapM_eq_error_iff_of_single {f : α → Except ε β} {P : α → Prop} {only : ε}
    (step : ∀ x cause, f x = .error cause ↔ P x ∧ only = cause) {entries : List α} {cause : ε} :
    entries.mapM f = .error cause ↔ (∃ x ∈ entries, P x) ∧ only = cause := by
  induction entries with
  | nil => simp [pure, Except.pure]
  | cons x entries ih =>
      rw [List.mapM_cons, bind_eq_error_iff, step]
      by_cases holds : P x
      · have failed : f x = .error only := (step x only).mpr ⟨holds, rfl⟩
        simp [holds, failed]
      · rcases outcome : f x with other | y
        · exact absurd ((step x other).mp outcome).1 holds
        · simp [holds, bind_eq_error_iff, ih, pure, Except.pure]

end PipeShell
