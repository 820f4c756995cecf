import Mathlib

/-!
Contract: fallible operations on a state.

Owns:
- the monad of an outcome with the state after it, where a failure keeps what was done;
- evaluation and inversion of sequences;
- the rule that a preorder between the states before and after composes;
- logs that operations append to.
-/

namespace Rs2Runtime.Data

universe u

/-- An operation on a state.  A failure keeps what was done before it. -/
def Effect (ε σ α : Type u) : Type u :=
  σ → Except ε α × σ

namespace Effect

variable {ε ε' σ α β : Type u}

/-! ## Operations -/

/-- Run `next` on a successful outcome, in the state that the first operation leaves. -/
def andThen (first : Effect ε σ α) (next : α → Effect ε σ β) : Effect ε σ β := fun state =>
  match first state with
  | (.error failure, after) => (.error failure, after)
  | (.ok value, after) => next value after

instance : Monad (Effect ε σ) where
  pure value := fun state => (.ok value, state)
  bind := andThen

/-- Fail and leave the state. -/
def fail (failure : ε) : Effect ε σ α := fun state =>
  (.error failure, state)

/-- An outcome that does not depend on the state. -/
def ofExcept (outcome : Except ε α) : Effect ε σ α := fun state =>
  (outcome, state)

/-- Look at the state and leave it. -/
def reading (look : σ → Except ε α) : Effect ε σ α := fun state =>
  (look state, state)

/-- Run an operation and go on with its outcome, whatever it is. -/
def attempt (op : Effect ε σ α) : Effect ε' σ (Except ε α) := fun state =>
  (.ok (op state).1, (op state).2)

/-- Change the failure of an operation. -/
def mapError (f : ε → ε') (op : Effect ε σ α) : Effect ε' σ α := fun state =>
  ((op state).1.mapError f, (op state).2)

/-! ## Evaluation -/

@[simp]
theorem pure_run (value : α) (state : σ) :
    (pure value : Effect ε σ α) state = (.ok value, state) :=
  rfl

@[simp]
theorem ofExcept_run (outcome : Except ε α) (state : σ) :
    ofExcept outcome state = (outcome, state) :=
  rfl

@[simp]
theorem reading_run (look : σ → Except ε α) (state : σ) :
    reading look state = (look state, state) :=
  rfl

@[simp]
theorem attempt_run (op : Effect ε σ α) (state : σ) :
    (attempt op : Effect ε' σ (Except ε α)) state = (.ok (op state).1, (op state).2) :=
  rfl

@[simp]
theorem mapError_run (f : ε → ε') (op : Effect ε σ α) (state : σ) :
    mapError f op state = ((op state).1.mapError f, (op state).2) :=
  rfl

variable {op : Effect ε σ α} {next : α → Effect ε σ β} {state : σ} {result : β}

theorem bind_of_ok {after : σ} {value : α} (ran : op state = (.ok value, after)) :
    (op >>= next) state = next value after := by
  change andThen op next state = _
  rw [andThen, ran]

theorem bind_of_error {after : σ} {failure : ε} (ran : op state = (.error failure, after)) :
    (op >>= next) state = (.error failure, after) := by
  change andThen op next state = _
  rw [andThen, ran]

/-- An operation whose result is changed at the end. -/
theorem bind_pure_run (op : Effect ε σ α) (f : α → β) (state : σ) :
    (op >>= fun value => pure (f value)) state = ((op state).1.map f, (op state).2) := by
  rcases ran : op state with ⟨failure | value, after⟩
  · rw [bind_of_error ran]
    rfl
  · rw [bind_of_ok ran]
    rfl

/-- A sequence succeeds exactly when both of its operations do. -/
theorem bind_eq_ok {after : σ} :
    (op >>= next) state = (.ok result, after) ↔
      ∃ value between, op state = (.ok value, between) ∧
        next value between = (.ok result, after) := by
  rcases ran : op state with ⟨outcome, between⟩
  cases outcome with
  | error failure =>
    rw [bind_of_error ran]
    constructor
    · intro impossible
      cases impossible
    · rintro ⟨value, between', impossible, -⟩
      cases impossible
  | ok value =>
    rw [bind_of_ok ran]
    constructor
    · intro continued
      exact ⟨value, between, rfl, continued⟩
    · rintro ⟨value', between', same, continued⟩
      cases same
      exact continued

/-- A sequence that starts with a given outcome. -/
theorem ofExcept_bind_eq_ok {outcome : Except ε α} {after : σ} :
    (ofExcept outcome >>= next) state = (.ok result, after) ↔
      ∃ value, outcome = .ok value ∧ next value state = (.ok result, after) := by
  cases outcome with
  | error failure => simp [bind_of_error (ofExcept_run (σ := σ) (.error failure : Except ε α) state)]
  | ok value => simp [bind_of_ok (ofExcept_run (σ := σ) (.ok value : Except ε α) state)]

/-- A sequence that starts with a look at the state. -/
theorem reading_bind_eq_ok {look : σ → Except ε α} {after : σ} :
    (reading look >>= next) state = (.ok result, after) ↔
      ∃ value, look state = .ok value ∧ next value state = (.ok result, after) :=
  ofExcept_bind_eq_ok

theorem pure_eq_ok {value result : α} {after : σ} :
    (pure value : Effect ε σ α) state = (.ok result, after) ↔
      value = result ∧ after = state := by
  rw [pure_run, Prod.mk.injEq, Except.ok.injEq, @eq_comm _ state]

/-- A sequence that starts with a given outcome stays where it is or goes on. -/
theorem ofExcept_bind_cases (outcome : Except ε α) (next : α → Effect ε σ β) (state : σ) :
    ((ofExcept outcome >>= next) state).2 = state ∨
      ∃ value, outcome = .ok value ∧ (ofExcept outcome >>= next) state = next value state := by
  cases outcome with
  | error failure =>
    rw [bind_of_error (ofExcept_run _ _)]
    exact .inl rfl
  | ok value => exact .inr ⟨value, rfl, bind_of_ok (ofExcept_run _ _)⟩

theorem reading_bind_cases (look : σ → Except ε α) (next : α → Effect ε σ β) (state : σ) :
    ((reading look >>= next) state).2 = state ∨
      ∃ value, look state = .ok value ∧ (reading look >>= next) state = next value state :=
  ofExcept_bind_cases (look state) next state

/-- What only looks afterwards leaves the state of what came first. -/
theorem bind_state_of_still (still : ∀ value state, (next value state).2 = state) (state : σ) :
    ((op >>= next) state).2 = (op state).2 := by
  rcases ran : op state with ⟨failure | value, after⟩
  · rw [bind_of_error ran]
  · rw [bind_of_ok ran]
    exact still value after

/-! ## States before and after -/

/-- Whatever the outcome, the states before and after are related. -/
def Keeps (rel : σ → σ → Prop) (op : Effect ε σ α) : Prop :=
  ∀ state, rel state (op state).2

section Keeps

variable {rel : σ → σ → Prop} [IsPreorder σ rel]

theorem keeps_pure (value : α) : Keeps rel (pure value : Effect ε σ α) :=
  fun state => refl state

theorem keeps_fail (failure : ε) : Keeps rel (fail failure : Effect ε σ α) :=
  fun state => refl state

theorem keeps_ofExcept (outcome : Except ε α) : Keeps rel (ofExcept outcome : Effect ε σ α) :=
  fun state => refl state

theorem keeps_reading (look : σ → Except ε α) : Keeps rel (reading look) :=
  fun state => refl state

/-- The rest need only relate states for the values that the first can give. -/
theorem keeps_bind_of_ok (first : Keeps rel op)
    (rest : ∀ value, (∃ before after, op before = (.ok value, after)) → Keeps rel (next value)) :
    Keeps rel (op >>= next) := by
  intro state
  have started := first state
  rcases ran : op state with ⟨failure | value, between⟩
  · rw [bind_of_error ran]
    rwa [ran] at started
  · rw [bind_of_ok ran]
    rw [ran] at started
    exact IsTrans.trans _ _ _ started (rest value ⟨state, between, ran⟩ between)

theorem keeps_bind (first : Keeps rel op) (rest : ∀ value, Keeps rel (next value)) :
    Keeps rel (op >>= next) :=
  keeps_bind_of_ok first fun value _ => rest value

end Keeps

theorem keeps_attempt {rel : σ → σ → Prop} (kept : Keeps rel op) :
    Keeps rel (attempt op : Effect ε' σ (Except ε α)) :=
  kept

theorem keeps_mapError {rel : σ → σ → Prop} {f : ε → ε'} (kept : Keeps rel op) :
    Keeps rel (mapError f op) :=
  kept

end Effect

/-! ## Logs -/

section Logs

variable {α : Type u} {allowed : α → Prop} {before between after added : List α}

/-- A log grew by entries that satisfy a predicate. -/
def Grows (allowed : α → Prop) (before after : List α) : Prop :=
  ∃ added, after = before ++ added ∧ ∀ entry ∈ added, allowed entry

theorem Grows.refl (allowed : α → Prop) (log : List α) : Grows allowed log log :=
  ⟨[], (List.append_nil log).symm, by simp⟩

theorem Grows.trans (early : Grows allowed before between) (late : Grows allowed between after) :
    Grows allowed before after := by
  obtain ⟨first, firstAdded, firstAllowed⟩ := early
  obtain ⟨second, secondAdded, secondAllowed⟩ := late
  refine ⟨first ++ second, by rw [secondAdded, firstAdded, List.append_assoc], ?_⟩
  intro entry member
  rcases List.mem_append.mp member with inFirst | inSecond
  · exact firstAllowed entry inFirst
  · exact secondAllowed entry inSecond

/-- The entries a log grew by decide whether it grew as allowed. -/
theorem grows_iff_of_append (appended : after = before ++ added) :
    Grows allowed before after ↔ ∀ entry ∈ added, allowed entry := by
  constructor
  · rintro ⟨others, othersAppended, othersAllowed⟩
    rw [appended, List.append_cancel_left_eq] at othersAppended
    rwa [othersAppended]
  · intro all
    exact ⟨added, appended, all⟩

end Logs

end Rs2Runtime.Data
