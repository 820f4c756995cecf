import Rs2Runtime.Data.Traced
import Rs2Runtime.Message.Basic

/-!
Contract: effect classes and the retry loop of one request.

Owns:
- the effect class of a method and which classes may be retried;
- retry policies, as far as they decide whether an attempt is repeated;
- the attempt loop of a request;
- that a request of an unsafe class is attempted once;
- which attempts a request makes, and which outcome it returns.

Does not own: the delays between attempts.
-/

namespace Rs2Runtime.Pipeline

open Text Data

/-- What repeating a request may do. -/
inductive EffectClass where
  | pure
  | idempotent
  | keyed
  | unsafe_
  deriving DecidableEq, Repr

namespace EffectClass

def defaultForMethod : Method → EffectClass
  | .get | .head | .options => .pure
  | .put | .delete => .idempotent
  | _ => .unsafe_

/-- Whether a call of this class may be repeated automatically. -/
def permitsRetry (effect : EffectClass) (hasIdempotencyKey : Bool) : Bool :=
  match effect with
  | .pure | .idempotent => true
  | .keyed => hasIdempotencyKey
  | .unsafe_ => false

end EffectClass

/-- A retry policy without its delays. -/
structure RetryPolicy where
  enabled : Bool
  maxAttempts : Nat
  retryStatuses : List Nat
  retryOnNetworkError : Bool
  deriving DecidableEq, Repr

namespace RetryPolicy

/-- The policy of an empty configuration object. -/
def default : RetryPolicy where
  enabled := true
  maxAttempts := 4
  retryStatuses := [408, 429, 500, 502, 503, 504]
  retryOnNetworkError := true

/-- A policy that never retries. -/
def noRetry : RetryPolicy :=
  { default with
    enabled := false
    maxAttempts := 1 }

def retryableStatus (policy : RetryPolicy) (status : Nat) : Bool :=
  policy.enabled && policy.retryStatuses.contains status

/-- Attempts of a request of the given class. -/
def attemptsFor (policy : RetryPolicy) (effect : EffectClass) (hasIdempotencyKey : Bool) : Nat :=
  if policy.enabled && effect.permitsRetry hasIdempotencyKey then max policy.maxAttempts 1 else 1

/-- Whether the result of an attempt asks for another one. -/
def asksAgain (policy : RetryPolicy) : Except RsError Message → Bool
  | .ok response => policy.retryableStatus (response.status.getD 200)
  | .error error => policy.enabled && policy.retryOnNetworkError && error.retryable

end RetryPolicy

section Loop

variable {ε ω : Type}

/-- The attempt loop: `remaining` further attempts are allowed after this one. -/
def retryLoop (policy : RetryPolicy) (attemptFn : Nat → Traced ε ω (Except RsError Message)) :
    (remaining attempt : Nat) → Traced ε ω (Except RsError Message)
  | 0, attempt => attemptFn attempt
  | remaining + 1, attempt => do
      let result ← attemptFn attempt
      if policy.asksAgain result then
        retryLoop policy attemptFn remaining (attempt + 1)
      else
        return result

/-- Drive an attempt function under a policy and an effect class. -/
def retryRequest (policy : RetryPolicy) (effect : EffectClass) (hasIdempotencyKey : Bool)
    (attemptFn : Nat → Traced ε ω (Except RsError Message)) : Traced ε ω (Except RsError Message) :=
  retryLoop policy attemptFn (policy.attemptsFor effect hasIdempotencyKey - 1) 1

/-- What every attempt yields, the whole request yields. -/
theorem yields_retryLoop {holds : ω → Prop} {result : Except RsError Message → Prop}
    (policy : RetryPolicy) {attemptFn : Nat → Traced ε ω (Except RsError Message)}
    (each : ∀ attempt, Traced.Yields holds result (attemptFn attempt)) (remaining attempt : Nat) :
    Traced.Yields holds result (retryLoop policy attemptFn remaining attempt) := by
  induction remaining generalizing attempt with
  | zero => exact each attempt
  | succ remaining ih =>
    refine Traced.yields_bind (each attempt) fun value known => ?_
    split
    · exact ih (attempt + 1)
    · exact Traced.yields_pure known

/-- An unsafe request is attempted once, whatever the policy. -/
theorem retryRequest_unsafe (policy : RetryPolicy) (hasIdempotencyKey : Bool)
    (attemptFn : Nat → Traced ε ω (Except RsError Message)) :
    retryRequest policy .unsafe_ hasIdempotencyKey attemptFn = attemptFn 1 := by
  simp [retryRequest, RetryPolicy.attemptsFor, EffectClass.permitsRetry, retryLoop]

end Loop

/-! ## The attempts of a request -/

/-- Outcomes that a policy retries: a listed status, or a transport error that may be repeated. -/
def RetryPolicy.Retryable (policy : RetryPolicy) : Except RsError Message → Prop
  | .ok response => policy.enabled = true ∧ response.status.getD 200 ∈ policy.retryStatuses
  | .error e => policy.enabled = true ∧ policy.retryOnNetworkError = true ∧ e.retryable = true

theorem RetryPolicy.asksAgain_iff (policy : RetryPolicy) (outcome : Except RsError Message) :
    policy.asksAgain outcome = true ↔ policy.Retryable outcome := by
  cases outcome with
  | ok response => simp [asksAgain, retryableStatus, Retryable]
  | error e => simp [asksAgain, Retryable, and_assoc]

section Attempts

variable {ε : Type} (policy : RetryPolicy) (outcome : Nat → Except RsError Message)

/-- Sends that are traced by the number of the attempt, and end as the sequence tells. -/
def sending (attempt : Nat) : Traced ε Nat (Except RsError Message) :=
  ⟨[attempt], .ok (outcome attempt)⟩

/-- The attempts at which a request may end: its last one, or one that is not retried. -/
def Final (last attempt : Nat) : Prop :=
  attempt = last ∨ ¬ policy.Retryable (outcome attempt)

/-- From any attempt on, the loop makes every attempt up to the first one that is final. -/
theorem retryLoop_sending (remaining attempt : Nat) :
    ∃ count,
      IsLeast {n | Final policy outcome (attempt + remaining) (attempt + n)} count ∧
      retryLoop policy (sending (ε := ε) outcome) remaining attempt =
        ⟨List.range' attempt (count + 1), .ok (outcome (attempt + count))⟩ := by
  induction remaining generalizing attempt with
  | zero => exact ⟨0, ⟨.inl rfl, fun n _ => Nat.zero_le n⟩, rfl⟩
  | succ remaining ih =>
    by_cases retried : policy.Retryable (outcome attempt)
    · obtain ⟨count, ⟨final, least⟩, made⟩ := ih (attempt + 1)
      have moved : attempt + 1 + count = attempt + (count + 1) := by omega
      have last : attempt + 1 + remaining = attempt + (remaining + 1) := by omega
      refine ⟨count + 1, ⟨?_, fun n ends => ?_⟩, ?_⟩
      · show Final policy outcome (attempt + (remaining + 1)) (attempt + (count + 1))
        rw [← moved, ← last]
        exact final
      · cases n with
        | zero =>
          -- The first attempt is retried and not the last one, so it does not end the request.
          rcases ends with isLast | unretried
          · omega
          · exact absurd retried unretried
        | succ n =>
          have later : Final policy outcome (attempt + 1 + remaining) (attempt + 1 + n) := by
            rw [last, show attempt + 1 + n = attempt + (n + 1) by omega]
            exact ends
          exact Nat.succ_le_succ (least later)
      · have again : policy.asksAgain (outcome attempt) = true :=
          (policy.asksAgain_iff _).mpr retried
        unfold retryLoop
        rw [Traced.bind_of_ok (rfl : (sending outcome attempt).outcome = _), if_pos again, made,
          moved]
        rfl
    · have ended : ¬ policy.asksAgain (outcome attempt) = true :=
        fun again => retried ((policy.asksAgain_iff _).mp again)
      refine ⟨0, ⟨.inr retried, fun n _ => Nat.zero_le n⟩, ?_⟩
      unfold retryLoop
      rw [Traced.bind_of_ok (rfl : (sending outcome attempt).outcome = _), if_neg ended]
      rfl

end Attempts

end Rs2Runtime.Pipeline
