import Mathlib

/-!
Contract: sequencing of fallible steps.

Owns: a guard that fails with a given error, and the inversion of successful sequences.
-/

namespace Rs2Runtime.Data.Outcome

universe u v

variable {ε α β γ : Type u}

/-- Succeed when the condition holds. -/
def require (condition : Prop) [Decidable condition] (error : ε) : Except ε PUnit.{u + 1} :=
  if condition then .ok PUnit.unit else .error error

@[simp]
theorem require_eq_ok {condition : Prop} [Decidable condition] {error : ε} {done : PUnit} :
    require condition error = .ok done ↔ condition := by
  unfold require
  split <;> simp [*]

theorem require_eq_error {condition : Prop} [Decidable condition] {error failure : ε} :
    require condition error = .error failure ↔ ¬ condition ∧ error = failure := by
  unfold require
  split <;> simp [*]

variable {first : Except ε α} {result : β}

/-- A sequence succeeds exactly when both of its steps do. -/
@[simp]
theorem bind_eq_ok {next : α → Except ε β} :
    first >>= next = .ok result ↔ ∃ value, first = .ok value ∧ next value = .ok result := by
  cases first with
  | error e => simp [bind, Except.bind]
  | ok value => simp [bind, Except.bind]

@[simp]
theorem pure_eq_ok {value result : α} :
    (pure value : Except ε α) = .ok result ↔ value = result := by
  simp [pure, Except.pure]

@[simp]
theorem map_eq_ok {f : α → β} :
    first.map f = .ok result ↔ ∃ value, first = .ok value ∧ f value = result := by
  cases first with
  | error e => simp [Except.map]
  | ok value => simp [Except.map]

/-- Sequences with the same first step look the same where their continuations do. -/
theorem map_bind_congr {next next' : α → Except ε β} {f : β → γ}
    (same : ∀ value, first = .ok value → (next value).map f = (next' value).map f) :
    (first >>= next).map f = (first >>= next').map f := by
  cases first with
  | error e => rfl
  | ok value => exact same value rfl

/-- A traversal succeeds where it does for every input. -/
theorem mapM_eq_ok_iff {step : α → Except ε β} {inputs : List α} {results : List β} :
    inputs.mapM step = .ok results ↔
      List.Forall₂ (fun input result => step input = .ok result) inputs results := by
  induction inputs generalizing results with
  | nil =>
    rw [List.mapM_nil, pure_eq_ok, List.forall₂_nil_left_iff]
    exact eq_comm
  | cons input inputs ih =>
    simp only [List.mapM_cons, bind_eq_ok, pure_eq_ok, ih, List.forall₂_cons_left_iff]
    constructor
    · rintro ⟨first, ran, rest, all, rfl⟩
      exact ⟨first, rest, ran, all, rfl⟩
    · rintro ⟨first, rest, ran, all, rfl⟩
      exact ⟨first, ran, rest, all, rfl⟩

/-- Every result of a traversal comes from one of its inputs. -/
theorem exists_of_mem_mapM {step : α → Except ε β} {inputs : List α} {results : List β}
    (ran : inputs.mapM step = .ok results) (member : result ∈ results) :
    ∃ input ∈ inputs, step input = .ok result := by
  induction inputs generalizing results with
  | nil =>
    rw [List.mapM_nil, pure_eq_ok] at ran
    subst ran
    cases member
  | cons input inputs ih =>
    simp only [List.mapM_cons, bind_eq_ok, pure_eq_ok] at ran
    obtain ⟨first, firstRan, rest, restRan, rfl⟩ := ran
    rcases List.mem_cons.mp member with rfl | later
    · exact ⟨input, List.mem_cons_self, firstRan⟩
    · obtain ⟨source, sourceMember, sourceRan⟩ := ih restRan later
      exact ⟨source, List.mem_cons_of_mem _ sourceMember, sourceRan⟩

end Rs2Runtime.Data.Outcome
