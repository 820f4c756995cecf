import Rs2Runtime.Pipeline.Executor

/-!
Contract: the attempts of a segment.

Owns:
- how often a segment is attempted and what each attempt starts from;
- which attempt the message and the variables after the segment come from.
-/

namespace Rs2Runtime.Pipeline

open Text Data Data.Outcome Json

/-- Attempts from `first` to `last` make up a run: those before the last one abort with a status
that is retried, and the outcome is that of the last one, with its variables settled. -/
structure MadeOf (executor : Executor) (place : Place) (attempt : Nat → Exec (Flow × Object))
    (settle : Flow × Object → Object) (first last : Nat) (run : Exec (Flow × Object)) : Prop where
  retried : ∀ number, first ≤ number → number < last → ∃ failed after,
    (attempt number).outcome = .ok (.abort failed, after) ∧
      executor.retry.retryableStatus (failed.status.getD 500) = true
  events : run.events = (List.range' first (last - first)).flatMap (fun number =>
    (attempt number).events ++ [.retry place ((attempt number).events.any isUnsafeSend)]) ++
      (attempt last).events
  outcome : run.outcome = (attempt last).outcome.map fun out => (out.1, settle out)

section Attempts

variable (executor : Executor) (world : World) (below : Runner) (spec : PipelineSpec)
variable (toStep : Option Nat) (segment : Segment) (snapshot : Option (Option Body))
variable (place : Place) (msg : Message) (vars : Object)

/-- The attempts of a segment: each starts from the same message and the same variables. -/
def segmentAttempt (number : Nat) : Exec (Flow × Object) :=
  runSegment executor world below spec toStep segment snapshot place number msg vars

/-- A run that ends with one of its attempts is made of that attempt. -/
theorem madeOf_single {attempt : Nat → Exec (Flow × Object)} {settle : Flow × Object → Object}
    {number : Nat} {next : Flow × Object → Exec (Flow × Object)}
    (ends : ∀ out, (attempt number).outcome = .ok out → next out = pure (out.1, settle out)) :
    MadeOf executor place attempt settle number number (attempt number >>= next) := by
  refine ⟨fun other from_ below => absurd below (by omega), ?_, ?_⟩
  · rw [Nat.sub_self]
    cases ended : (attempt number).outcome with
    | error failure => rw [Traced.bind_of_error ended]; rfl
    | ok out =>
      rw [Traced.bind_of_ok ended, ends out ended]
      exact List.append_nil _
  · cases ended : (attempt number).outcome with
    | error failure => rw [Traced.bind_of_error ended]; rfl
    | ok out => rw [Traced.bind_of_ok ended, ends out ended]; rfl

/-- From any attempt on, the loop is made of attempts from that one. -/
theorem runAttempts_madeOf (single : Bool) (remaining first : Nat) :
    ∃ last, first ≤ last ∧ last ≤ first + remaining ∧
      MadeOf executor place
        (segmentAttempt executor world below spec toStep segment snapshot place msg vars)
        (attemptVars single vars) first last
        (runAttempts executor world below spec toStep segment snapshot place single remaining first
          msg vars) := by
  induction remaining generalizing first with
  | zero => exact ⟨first, Nat.le_refl _, Nat.le_refl _, madeOf_single executor place fun _ _ => rfl⟩
  | succ remaining ih =>
    by_cases again : ∃ failed after, (segmentAttempt executor world below spec toStep segment
        snapshot place msg vars first).outcome = .ok (.abort failed, after) ∧
          executor.retry.retryableStatus (failed.status.getD 500) = true
    · obtain ⟨failed, after, aborted, retryable⟩ := again
      obtain ⟨last, from_, upTo, retried, events, outcome⟩ := ih (first + 1)
      have run : runAttempts executor world below spec toStep segment snapshot place single
          (remaining + 1) first msg vars =
            ⟨(segmentAttempt executor world below spec toStep segment snapshot place msg vars
                first).events ++ .retry place ((segmentAttempt executor world below spec toStep
                  segment snapshot place msg vars first).events.any isUnsafeSend) ::
                (runAttempts executor world below spec toStep segment snapshot place single
                  remaining (first + 1) msg vars).events,
              (runAttempts executor world below spec toStep segment snapshot place single
                remaining (first + 1) msg vars).outcome⟩ := by
        rw [runAttempts]
        refine (Traced.bind_of_ok aborted _).trans ?_
        dsimp only
        rw [if_pos retryable]
        rfl
      refine ⟨last, by omega, by omega, ?_, ?_, ?_⟩
      · intro number start before
        rcases Nat.eq_or_lt_of_le start with rfl | later
        · exact ⟨failed, after, aborted, retryable⟩
        · exact retried number later before
      · rw [run, show last - first = last - (first + 1) + 1 by omega, List.range'_succ,
          List.flatMap_cons, events]
        simp only [List.append_assoc, List.cons_append, List.nil_append]
      · rw [run, outcome]
    · refine ⟨first, Nat.le_refl _, by omega, ?_⟩
      refine madeOf_single executor place fun out ended => ?_
      obtain ⟨flow, after⟩ := out
      cases flow with
      | next msg => rfl
      | exit msg => rfl
      | abort failed =>
        dsimp only
        rw [if_neg fun retryable => again ⟨failed, after, ended, retryable⟩]

/-- A segment is made of at most as many attempts as the policy allows.  All of them start from
the same message and variables; what is left is what the last of them leaves, except that a last
attempt which aborts where more than one was allowed leaves the variables as they were. -/
theorem segment_is_transactional :
    ∃ last, 1 ≤ last ∧ last ≤ max 1 executor.retry.maxAttempts ∧
      MadeOf executor place
        (segmentAttempt executor world below spec toStep segment snapshot place msg vars)
        (attemptVars (segmentAttempts executor spec segment snapshot = 1) vars) 1 last
        (runAttempts executor world below spec toStep segment snapshot place
          (segmentAttempts executor spec segment snapshot = 1)
          (segmentAttempts executor spec segment snapshot - 1) 1 msg vars) := by
  have allowed : 1 ≤ segmentAttempts executor spec segment snapshot ∧
      segmentAttempts executor spec segment snapshot ≤ max 1 executor.retry.maxAttempts := by
    unfold segmentAttempts
    dsimp only
    split <;> omega
  obtain ⟨last, from_, upTo, made⟩ := runAttempts_madeOf executor world below spec toStep segment
    snapshot place msg vars (segmentAttempts executor spec segment snapshot = 1)
    (segmentAttempts executor spec segment snapshot - 1) 1
  exact ⟨last, from_, by omega, made⟩

end Attempts

/-- A call whose result is captured, and a call that always fails. -/
def captureThenFail : PipelineSpec :=
  .serial (some .stop)
    [{ Step.callTo "GET" "/a" with capture := some "$x" }, Step.callTo "GET" "/down"]

def World.halfDown : World :=
  .answering Tagged.codec fun _ _ request =>
    request.response (if request.url.path = "/down" then 503 else 200) none

/-- With retries allowed, an aborted segment does not even leave what its last attempt captured. -/
theorem aborted_segment_leaves_no_capture :
    ¬ ∃ last, 1 ≤ last ∧ last ≤ max 1 RetryPolicy.default.maxAttempts ∧
      MadeOf (.plain .default) .root
        (segmentAttempt (.plain .default) .halfDown (runPipeline (.plain .default) .halfDown 0)
          captureThenFail none ⟨0, 2⟩ (some none) .root (.request .get "/" "t" "trace") [])
        Prod.snd 1 last
        (runAttempts (.plain .default) .halfDown (runPipeline (.plain .default) .halfDown 0)
          captureThenFail none ⟨0, 2⟩ (some none) .root
          (segmentAttempts (.plain .default) captureThenFail ⟨0, 2⟩ (some none) = 1)
          (segmentAttempts (.plain .default) captureThenFail ⟨0, 2⟩ (some none) - 1) 1
          (.request .get "/" "t" "trace") []) := by
  rintro ⟨last, from_, upTo, made⟩
  have vars := congrArg (fun outcome => outcome.toOption.map Prod.snd) made.outcome
  have bounded : last ≤ 4 := upTo
  interval_cases last <;> exact absurd vars (by decide +kernel)

end Rs2Runtime.Pipeline
