import Mathlib

/-!
Contract: runs of deterministic machines whose steps may be refused.

Owns:
- the run of a list of actions;
- a condition that every step of a run meets in the state it is taken from;
- the invariant rule for conditional runs.
-/

namespace Rs2Runtime.Data.Machine

universe u v

variable {σ : Type u} {α : Type v}

/-- Take the actions one after another; none when one is refused. -/
def run (step : σ → α → Option σ) : σ → List α → Option σ
  | state, [] => some state
  | state, action :: actions => (step state action).bind fun next => run step next actions

/-- Every action of the run meets the condition in the state it is taken from. -/
def AllMeet (step : σ → α → Option σ) (condition : σ → α → Prop) : σ → List α → Prop
  | _, [] => True
  | state, action :: actions =>
    condition state action ∧
      match step state action with
      | none => True
      | some next => AllMeet step condition next actions

instance decidableAllMeet (step : σ → α → Option σ) (condition : σ → α → Prop)
    [∀ state action, Decidable (condition state action)] :
    ∀ state actions, Decidable (AllMeet step condition state actions)
  | _, [] => isTrue trivial
  | state, action :: actions =>
    match met : step state action with
    | none =>
      decidable_of_iff (condition state action) (by simp [AllMeet, met])
    | some next =>
      haveI := decidableAllMeet step condition next actions
      decidable_of_iff
        (condition state action ∧ AllMeet step condition next actions)
        (by simp [AllMeet, met])

variable {step : σ → α → Option σ} {condition : σ → α → Prop}

theorem AllMeet.imp {consequence : σ → α → Prop}
    (implies : ∀ state action, condition state action → consequence state action) {state : σ}
    {actions : List α} (met : AllMeet step condition state actions) :
    AllMeet step consequence state actions := by
  induction actions generalizing state with
  | nil => trivial
  | cons action actions ih =>
    refine ⟨implies state action met.1, ?_⟩
    have rest := met.2
    split
    · trivial
    · rename_i next stepped
      rw [stepped] at rest
      exact ih rest

/-- A condition that always holds is met by every run. -/
theorem allMeet_of_forall (always : ∀ state action, condition state action) (state : σ)
    (actions : List α) :
    AllMeet step condition state actions := by
  induction actions generalizing state with
  | nil => trivial
  | cons action actions ih =>
    refine ⟨always state action, ?_⟩
    split
    · trivial
    · exact ih _

/-- What every conditional step preserves holds at the end of every conditional run. -/
theorem run_invariant {Invariant : σ → Prop} (preserved :
      ∀ state action next, Invariant state → condition state action →
        step state action = some next → Invariant next) {state final : σ} {actions : List α}
    (initially : Invariant state) (met : AllMeet step condition state actions)
    (executed : run step state actions = some final) :
    Invariant final := by
  induction actions generalizing state with
  | nil =>
    cases executed
    exact initially
  | cons action actions ih =>
    obtain ⟨next, stepped, continued⟩ := Option.bind_eq_some_iff.mp executed
    have parts := met
    rw [AllMeet, stepped] at parts
    have reached := preserved state action next initially parts.1 stepped
    exact ih reached parts.2 continued

end Rs2Runtime.Data.Machine
