import Rs2Runtime.Pipeline.Executor

/-!
Contract: whose message a pipeline execution has in flight.

Owns:
- that reading, copying, shaping and joining a message leave its principal;
- the source and the principal of the requests of a call;
- whose message the result of a step is.
-/

namespace Rs2Runtime.Pipeline

open Text Data Data.Outcome Json

variable {executor : Executor} {world : World}

/-! ## Reading and copying -/

variable {msg : Message}

theorem materializeIfNeeded_principal {read : Message}
    (done : materializeIfNeeded executor msg = .ok read) : read.principal = msg.principal := by
  unfold materializeIfNeeded at done
  split at done
  · cases done
    rfl
  · split at done
    · obtain ⟨bytes, -, rfl⟩ := map_eq_ok.mp done
      rfl
    · cases done
      rfl

theorem snapshotBody_principal {taken : Option (Option Body) × Message}
    (done : snapshotBody executor msg = .ok taken) : taken.2.principal = msg.principal := by
  unfold snapshotBody at done
  split at done
  · cases done
    rfl
  · split at done
    · split at done
      · split at done
        · obtain ⟨bytes, -, rfl⟩ := map_eq_ok.mp done
          rfl
        · cases done
          rfl
      · cases done
        rfl
    · cases done
      rfl

theorem attemptMessage_principal (snapshot : Option (Option Body)) (msg : Message) :
    (attemptMessage snapshot msg).principal = msg.principal := by
  cases snapshot <;> rfl

theorem tryClone_principal {copy : Message} (cloned : tryClone msg = some copy) :
    copy.principal = msg.principal := by
  unfold tryClone at cloned
  split at cloned
  · cases cloned
    rfl
  · obtain ⟨body, -, rfl⟩ := Option.map_eq_some_iff.mp cloned
    rfl

theorem teeCopy_principal {copy : Message} (cloned : teeCopy msg = .ok copy) :
    copy.principal = msg.principal := by
  unfold teeCopy at cloned
  split at cloned
  next found =>
    cases cloned
    exact tryClone_principal found
  next => cases cloned

theorem join_principal {named : List (Str × Message)} {template joined : Message}
    (done : join executor world named template = .ok joined) :
    joined.principal = template.principal := by
  simp only [join, bind_eq_ok, pure_eq_ok] at done
  obtain ⟨members, -, rfl⟩ := done
  rfl

/-! ## Transforms -/

theorem transformInput_principal {read : Value × Message}
    (done : transformInput executor world msg = .ok read) : read.2.principal = msg.principal := by
  unfold transformInput at done
  split at done
  · cases done
    rfl
  · obtain ⟨bytes, -, rfl⟩ := map_eq_ok.mp done
    rfl

theorem ResponseEnvelope.apply_principal {codec : Codec} {inner : Object} {shaped : Message}
    (done : ResponseEnvelope.apply codec inner msg = .ok shaped) :
    shaped.principal = msg.principal := by
  unfold ResponseEnvelope.apply at done
  split at done
  · cases done
  · simp only [bind_eq_ok, pure_eq_ok] at done
    obtain ⟨-, -, status, -, mediaType, -, headers, -, rfl⟩ := done
    rfl

theorem runTransform_principal {step : Step} {template : Value} {vars : Object}
    {out : Flow × Object}
    (finished : runTransform executor world step template msg vars = .ok out) :
    out.1.message.principal = msg.principal := by
  simp only [runTransform, bind_eq_ok] at finished
  obtain ⟨read, input, value, -, finished⟩ := finished
  have same := transformInput_principal input
  split at finished
  · cases finished
    exact same
  · split at finished
    · simp only [bind_eq_ok, pure_eq_ok] at finished
      obtain ⟨shaped, applied, rfl⟩ := finished
      exact (ResponseEnvelope.apply_principal applied).trans same
    · cases finished
      exact same

/-! ## Calls -/

theorem callBody_principal {method : Method} {preserve : Bool} {body : CallBody}
    (taken : callBody executor method preserve msg = .ok body) :
    body.left.principal = msg.principal := by
  unfold callBody at taken
  split at taken
  · cases taken
    rfl
  · split at taken
    · obtain ⟨kept, read, rfl⟩ := map_eq_ok.mp taken
      exact materializeIfNeeded_principal read
    · split at taken
      · cases taken
        rfl
      · split at taken <;>
          · cases taken
            rfl

/-- A request to a URL outside the node. -/
def LeavesNode (request : Message) : Prop :=
  ∃ url, Outbound.isExternalUrl url = some true ∧ request.url = MsgUrl.parse url

/-- A request of a call over a message in flight: into the node with the principal of the
call, or out of it with none. -/
structure SentBy (executor : Executor) (step : Step) (msg request : Message) : Prop where
  source : request.source = .internal
  principal : request.principal = callPrincipal executor step msg ∨
    LeavesNode request ∧ request.principal = none

theorem Message.setHeader_frame (msg : Message) (name value : Str) :
    (msg.setHeader name value).source = msg.source ∧
      (msg.setHeader name value).principal = msg.principal ∧
      (msg.setHeader name value).url = msg.url := by
  unfold Rs2Runtime.Message.setHeader
  split <;> exact ⟨rfl, rfl, rfl⟩

theorem CallPlan.request_frame (plan : CallPlan) (attempt : Nat) :
    (plan.request attempt).source = .internal ∧
      (plan.request attempt).principal =
        (if plan.target = .internal then plan.principal else none) ∧
      (plan.request attempt).url = MsgUrl.parse plan.url := by
  unfold CallPlan.request
  dsimp only
  split
  · obtain ⟨source, principal, url⟩ := Message.setHeader_frame _ _ _
    exact ⟨source, principal, url⟩
  · exact ⟨rfl, rfl, rfl⟩

/-- Only URLs outside the node get an external target. -/
theorem chooseTarget_external {isExternal : Bool} {url : Str} {target : CallTarget}
    (chosen : chooseTarget executor isExternal url = .ok target) (outside : target ≠ .internal) :
    isExternal = true ∧ executor.external.isSome := by
  unfold chooseTarget at chosen
  split at chosen
  next leaves =>
    split at chosen
    next granted => exact ⟨leaves, by rw [granted]; rfl⟩
    next => cases chosen
  next =>
    cases chosen
    exact absurd rfl outside

/-- What a finished call has in flight: the message, if the result is captured or an external
call failed; else the response. -/
theorem finishCall_message {step : Step} {isExternal : Bool} {result : Except RsError Message}
    {vars : Object} {out : Flow × Object}
    (finished : finishCall executor world step msg isExternal result vars = .ok out) :
    out.1.message.principal = msg.principal ∨
      step.capture = none ∧ ∃ response, result = .ok response ∧
        out.1.message.principal = response.principal := by
  simp only [finishCall, bind_eq_ok] at finished
  obtain ⟨response, answered, finished⟩ := finished
  have answer : response.principal = msg.principal ∨ result = .ok response := by
    unfold callResponse at answered
    split at answered
    · cases answered
      exact .inr rfl
    · split at answered
      · cases answered
        refine .inl ?_
        unfold Rs2Runtime.Message.errorResponse
        dsimp only
        split <;> rfl
      · cases answered
  split at finished
  next =>
    obtain ⟨value, -, rfl⟩ := map_eq_ok.mp finished
    exact .inl rfl
  next uncaptured =>
    have kept : out.1.message.principal = response.principal := by
      split at finished <;>
        · cases finished
          rfl
    exact answer.imp kept.trans fun ok => ⟨uncaptured, response, ok, kept⟩

/-! ## Flows -/

theorem Flow.message_fromNested (flow : Flow) : flow.fromNested.message = flow.message := by
  cases flow <;> rfl

theorem Flow.message_fromChosen (flow : Flow) : flow.fromChosen.message = flow.message := by
  cases flow <;> rfl

theorem message_afterStep (spec : PipelineSpec) (step : Step) (flow : Flow) :
    (afterStep spec step flow).message = flow.message := by
  unfold afterStep
  split
  · split
    · split <;> rfl
    · split <;> rfl
  · rfl

end Rs2Runtime.Pipeline
