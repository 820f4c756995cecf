import Rs2Runtime.Pipeline.Executor

/-!
Contract: how often a pipeline execution sends the request of an unsafe call.

Owns:
- regions of positions: below a position, and through some of the indices at it;
- that a run whose segment retries follow attempts without unsafe requests sends at most one
  unsafe request for each position;
- a valid pipeline whose unsafe call is sent twice.

Does not own: requests of the other effect classes, which may be retried.
-/

namespace Rs2Runtime.Pipeline

open Text Data Data.Outcome Json

/-! ## Regions of positions -/

/-- The index of the step that a turn belongs to. -/
def Crumb.index : Crumb → Nat
  | .step index => index
  | .element splitIndex _ => splitIndex

/-- Positions at or below a position. -/
def Under (position : Position) (other : Position) : Prop :=
  position <+: other

/-- Positions below a position whose next turn belongs to one of the indices. -/
def Through (position : Position) (indices : Nat → Prop) (other : Position) : Prop :=
  ∃ crumb rest, indices crumb.index ∧ other = position ++ crumb :: rest

variable {position other : Position} {indices : Nat → Prop}

theorem under_apart {left right : Crumb} (differ : left ≠ right)
    (underLeft : Under (position ++ [left]) other)
    (underRight : Under (position ++ [right]) other) : False := by
  obtain ⟨rest, rfl⟩ := underLeft
  obtain ⟨rest', same⟩ := underRight
  simp only [List.append_assoc, List.append_cancel_left_eq, List.singleton_append,
    List.cons.injEq] at same
  exact differ same.1.symm

theorem through_of_under {crumb : Crumb} (known : indices crumb.index)
    (under : Under (position ++ [crumb]) other) :
    Through position indices other := by
  obtain ⟨rest, rfl⟩ := under
  exact ⟨crumb, rest, known, by simp⟩

theorem under_of_through (through : Through position indices other) : Under position other := by
  obtain ⟨crumb, rest, -, rfl⟩ := through
  exact ⟨crumb :: rest, rfl⟩

theorem Through.mono {indices' : Nat → Prop} (through : Through position indices other)
    (implied : ∀ index, indices index → indices' index) :
    Through position indices' other := by
  obtain ⟨crumb, rest, known, rfl⟩ := through
  exact ⟨crumb, rest, implied _ known, rfl⟩

theorem through_apart {indices' : Nat → Prop}
    (apart : ∀ index, indices index → indices' index → False)
    (left : Through position indices other) (right : Through position indices' other) : False := by
  obtain ⟨crumb, rest, known, rfl⟩ := left
  obtain ⟨crumb', rest', known', same⟩ := right
  simp only [List.append_cancel_left_eq, List.cons.injEq] at same
  obtain ⟨rfl, -⟩ := same
  exact apart _ known known'

/-! ## Unsafe requests -/

/-- The position an event sends an unsafe request for. -/
def unsafePosition : Event → Option Position
  | .send place _ effect _ _ => if effect = .unsafe_ then some place.position else none
  | _ => none

/-- The positions that a trace sends unsafe requests for, in order and with repetitions. -/
def unsafeSends (events : List Event) : List Position :=
  events.filterMap unsafePosition

/-- No retry of a segment whose failed attempt has sent an unsafe request. -/
def RetriesSafely : Event → Prop
  | .retry _ sentUnsafe => sentUnsafe = false
  | _ => True

instance : DecidablePred RetriesSafely
  | .retry _ sentUnsafe => inferInstanceAs (Decidable (sentUnsafe = false))
  | .call .. | .send .. => inferInstanceAs (Decidable True)

/-- If all retries are safe, the unsafe requests have distinct positions in the region. -/
abbrev SentOnce (region : Position → Prop) (events : List Event) : Prop :=
  Traced.Once RetriesSafely unsafePosition region events

/-- Executions one level below send at most once, for positions below their own. -/
def OnceBelow (below : Runner) : Prop :=
  ∀ spec msg vars place toStep,
    SentOnce (Under place.position) (below spec msg vars place toStep).events

theorem unsafePosition_eq_none {event : Event} (safe : isUnsafeSend event = false) :
    unsafePosition event = none := by
  cases event with
  | send place attempt effect autoKey request =>
    have other : effect ≠ .unsafe_ := of_decide_eq_false safe
    exact if_neg other
  | _ => rfl

/-- A step without events comes first. -/
theorem sentOnce_lift_bind {α β : Type} {region : Position → Prop} (outcome : Except RsError α)
    {next : α → Exec β}
    (after : ∀ value, outcome = .ok value → SentOnce region (next value).events) :
    SentOnce region (lift outcome >>= next).events := by
  refine Traced.once_bind_of_unmarked (Traced.unmarked_ofExcept _) fun value ended =>
    after value ?_
  cases outcome with
  | error e => cases ended
  | ok found =>
    cases ended
    rfl

variable {executor : Executor} {world : World}

/-! ## Calls -/

theorem retryRequest_unmarked {plan : CallPlan} (safe : plan.effect ≠ .unsafe_) (place : Place)
    (policy : RetryPolicy) (effect : EffectClass) (hasIdempotencyKey : Bool) :
    Traced.Yields (fun event => unsafePosition event = none) (fun _ => True)
      (retryRequest policy effect hasIdempotencyKey (sendAttempt world place plan)) := by
  refine yields_retryLoop policy (fun attempt => ?_) _ 1
  refine Traced.yields_bind (Traced.yields_emit (if_neg safe)) fun _ _ => ?_
  split <;> exact Traced.yields_pure trivial

theorem sendAttempt_once (place : Place) (plan : CallPlan) (attempt : Nat) :
    SentOnce (Under place.position) (sendAttempt world place plan attempt).events := by
  refine Traced.once_bind_unmarked (fun _ => ?_) fun _ _ => ?_
  · by_cases isUnsafe : plan.effect = .unsafe_
    · simp [Traced.emit, unsafePosition, isUnsafe, Under]
    · simp [Traced.emit, unsafePosition, isUnsafe]
  · split <;> exact Traced.unmarked_pure _

/-- A call sends one unsafe request at most, whatever its own retry policy. -/
theorem sendCall_once (step : Step) (call : CallSpec) (place : Place) (url : Str)
    (isExternal : Bool) (method : Method) (headers : HeaderMap) (body : CallBody) :
    SentOnce (Under place.position)
      (sendCall executor world step call place url isExternal method headers body).events := by
  unfold sendCall
  split
  next => exact Traced.once_of_unmarked (Traced.unmarked_pure _)
  next target _ =>
    dsimp only
    by_cases isUnsafe : call.effectClass = .unsafe_
    · rw [isUnsafe, retryRequest_unsafe]
      exact sendAttempt_once place _ 1
    · exact Traced.once_of_unmarked (retryRequest_unmarked isUnsafe place _ _ _).1

theorem runCall_once (step : Step) (call : CallSpec) (msg : Message) (vars : Object)
    (place : Place) :
    SentOnce (Under place.position)
      (runCall executor world step call msg vars place).events := by
  refine sentOnce_lift_bind _ fun method _ => ?_
  refine Traced.once_bind_of_unmarked (Traced.unmarked_emit rfl) fun _ _ => ?_
  refine sentOnce_lift_bind _ fun url _ => ?_
  refine sentOnce_lift_bind _ fun body _ => ?_
  refine Traced.once_bind_of_unmarked ?_ fun isExternal _ => ?_
  · unfold classify
    split
    · exact Traced.unmarked_pure _
    · exact Traced.unmarked_fail _
  refine sentOnce_lift_bind _ fun headers _ => ?_
  exact Traced.once_bind_unmarked (sendCall_once step call place url isExternal method headers body)
    fun _ _ => Traced.unmarked_ofExcept _

/-! ## Steps -/

section Below

variable {below : Runner} (once : OnceBelow below)
include once

theorem runAction_once (step : Step) (msg : Message) (vars : Object) (place : Place) :
    SentOnce (Under place.position)
      (runAction executor world below step msg vars place).events := by
  unfold runAction
  split
  · exact runCall_once step _ msg vars place
  · split
    · exact Traced.once_of_unmarked (Traced.unmarked_ofExcept _)
    · split
      · exact Traced.once_bind_unmarked (once _ msg vars place none)
          fun _ _ => Traced.unmarked_pure _
      · exact Traced.once_of_unmarked (Traced.unmarked_fail _)

theorem runStep_once (step : Step) (msg : Message) (vars : Object) (place : Place) :
    SentOnce (Under place.position) (runStep executor world below step msg vars place).events := by
  refine sentOnce_lift_bind _ fun passes _ => ?_
  split
  · exact runAction_once once step msg vars place
  · exact Traced.once_of_unmarked (Traced.unmarked_pure _)

/-! ## Splits -/

omit once in
/-- The body a split reads is well formed, so its fields have distinct names. -/
theorem splitInput_wellFormed {msg : Message} {json : Value}
    (read : splitInput executor world msg = .ok json) : json.WellFormed := by
  unfold splitInput at read
  split at read
  next body _ =>
    obtain ⟨found, parsed, rfl⟩ := map_eq_ok.mp read
    exact Body.wellFormed_of_asJson parsed
  next => cases read

omit once in
theorem splitElements_names {json : Value} (wellFormed : json.WellFormed) :
    (splitElements json).Pairwise fun left right => left.1 ≠ right.1 := by
  unfold splitElements
  split
  next items =>
    rw [List.pairwise_map]
    have indices : (items.zipIdx.map Prod.snd).Nodup := by
      rw [List.zipIdx_map_snd]
      exact List.nodup_range'
    refine (List.pairwise_map.mp indices).imp fun differ same => ?_
    exact differ (natStr_injective same)
  next fields => exact List.pairwise_map.mp wellFormed.1.nodup
  next => exact List.pairwise_singleton _ _

theorem runSplit_once (spec : PipelineSpec) (index : Nat) (msg : Message) (vars : Object)
    (place : Place) :
    SentOnce (Through place.position (· = index))
      (runSplit executor world below spec index msg vars place).events := by
  rw [runSplit, splitResults]
  simp only [bind_assoc, pure_bind]
  refine sentOnce_lift_bind _ fun json read => ?_
  refine sentOnce_lift_bind _ fun _ _ => ?_
  have names := splitElements_names (splitInput_wellFormed read)
  have each : ∀ element ∈ splitElements json,
      SentOnce (Under (place.position ++ [.element index element.1]))
        (runElement world below (afterSplit spec index) index msg vars place element).events := by
    intro element _
    unfold runElement
    dsimp only
    split
    · exact Traced.once_of_unmarked (Traced.unmarked_pure _)
    · exact Traced.once_bind_unmarked (once _ _ vars _ none) fun _ _ => Traced.unmarked_pure _
  have apart : (splitElements json).Pairwise fun left right => ∀ other,
      Under (place.position ++ [.element index left.1]) other →
        Under (place.position ++ [.element index right.1]) other → False :=
    names.imp fun differ other =>
      under_apart fun same => differ (Crumb.element.inj same).2
  refine Traced.once_bind_unmarked (Traced.once_gather each apart fun element _ other =>
    through_of_under rfl) fun outcomes _ => ?_
  exact Traced.unmarked_bind (Traced.unmarked_ofExcept _) fun named =>
    Traced.unmarked_bind (Traced.unmarked_ofExcept _) fun joined => Traced.unmarked_pure _

/-! ## Segments -/

theorem runSteps_once (spec : PipelineSpec) (toStep : Option Nat) (place : Place)
    {steps : List (Step × Nat)} (distinct : (steps.map Prod.snd).Nodup) (msg : Message)
    (vars : Object) :
    SentOnce (Through place.position (· ∈ steps.map Prod.snd))
      (runSteps executor world below spec toStep place steps msg vars).events := by
  induction steps generalizing msg vars with
  | nil => exact Traced.once_of_unmarked (Traced.unmarked_pure _)
  | cons indexed steps ih =>
    obtain ⟨step, index⟩ := indexed
    obtain ⟨fresh, distinct⟩ := List.nodup_cons.mp distinct
    have later := ih distinct
    have inTail : ∀ other, Through place.position (· ∈ steps.map Prod.snd) other →
        Through place.position (· ∈ ((step, index) :: steps).map Prod.snd) other :=
      fun other through => through.mono fun _ member => List.mem_cons_of_mem _ member
    have atHead : ∀ other, Through place.position (· = index) other →
        Through place.position (· ∈ ((step, index) :: steps).map Prod.snd) other := by
      intro other through
      refine through.mono fun _ same => ?_
      rw [same]
      exact List.mem_cons_self
    unfold runSteps
    split
    · exact Traced.once_of_unmarked (Traced.unmarked_pure _)
    · split
      · refine sentOnce_lift_bind _ fun passes _ => ?_
        split
        · exact (runSplit_once once spec index msg vars place).widen atHead
        · exact (later msg vars).widen inTail
      · have here : SentOnce (Through place.position (· = index))
            (runStep executor world below step msg vars (place.step index)).events :=
          (runStep_once once step msg vars (place.step index)).widen
            fun _ under => through_of_under rfl under
        refine Traced.once_bind here (fun out _ => ?_) (fun _ => through_apart ?_) atHead inTail
        · split
          · exact later _ _
          · exact Traced.once_of_unmarked (Traced.unmarked_pure _)
        · rintro _ rfl member
          exact fresh member

omit once in
theorem segmentSteps_indices (spec : PipelineSpec) (segment : Segment) :
    (segmentSteps spec segment).map Prod.snd =
      ((List.range' 0 spec.steps.length).take segment.stop).drop segment.start := by
  unfold segmentSteps
  rw [List.map_drop, List.map_take, List.zipIdx_map_snd]

omit once in
theorem mem_segmentSteps_indices {spec : PipelineSpec} {segment : Segment} {index : Nat}
    (member : index ∈ (segmentSteps spec segment).map Prod.snd) :
    segment.start ≤ index ∧ index < segment.stop := by
  rw [segmentSteps_indices] at member
  obtain ⟨offset, bounded, rfl⟩ := List.mem_iff_getElem.mp member
  rw [List.length_drop, List.length_take] at bounded
  rw [List.getElem_drop, List.getElem_take, List.getElem_range']
  omega

theorem runSegment_once (spec : PipelineSpec) (toStep : Option Nat) (segment : Segment)
    (snapshot : Option (Option Body)) (place : Place) (attempt : Nat) (msg : Message)
    (vars : Object) :
    SentOnce (Through place.position fun index => segment.start ≤ index ∧ index < segment.stop)
      (runSegment executor world below spec toStep segment snapshot place attempt msg
        vars).events := by
  have distinct : ((segmentSteps spec segment).map Prod.snd).Nodup := by
    rw [segmentSteps_indices]
    exact List.Nodup.sublist ((List.drop_sublist _ _).trans (List.take_sublist _ _))
      List.nodup_range'
  refine (runSteps_once once spec toStep (place.attempt attempt) distinct
    (attemptMessage snapshot msg) vars).widen fun _ through => ?_
  exact through.mono fun _ member => mem_segmentSteps_indices member

/-- Attempts of a segment: one that is retried has sent nothing unsafe. -/
theorem runAttempts_once (spec : PipelineSpec) (toStep : Option Nat) (segment : Segment)
    (snapshot : Option (Option Body)) (place : Place) (single : Bool) (remaining attempt : Nat)
    (msg : Message) (vars : Object) :
    SentOnce (Through place.position fun index => segment.start ≤ index ∧ index < segment.stop)
      (runAttempts executor world below spec toStep segment snapshot place single remaining
        attempt msg vars).events := by
  induction remaining generalizing attempt with
  | zero =>
    exact Traced.once_bind_unmarked
      (runSegment_once once spec toStep segment snapshot place attempt msg vars)
      fun _ _ => Traced.unmarked_pure _
  | succ remaining ih =>
    have first : SentOnce (Through place.position fun index =>
        segment.start ≤ index ∧ index < segment.stop)
        (runSegment executor world below spec toStep segment snapshot place attempt msg
          vars).events :=
      runSegment_once once spec toStep segment snapshot place attempt msg vars
    unfold runAttempts
    dsimp only
    cases sent : (runSegment executor world below spec toStep segment snapshot place attempt msg
        vars).events.any isUnsafeSend with
    | false =>
      refine Traced.once_bind_of_unmarked (fun event member => unsafePosition_eq_none ?_)
        fun out _ => ?_
      · exact Bool.eq_false_iff.mpr fun isUnsafe =>
          List.any_eq_false.mp sent event member isUnsafe
      · split
        · split
          · exact Traced.once_bind_of_unmarked (Traced.unmarked_emit rfl)
              fun _ _ => ih (attempt + 1)
          · exact Traced.once_of_unmarked (Traced.unmarked_pure _)
        · exact Traced.once_of_unmarked (Traced.unmarked_pure _)
    | true =>
      -- a retry would be a forbidden one, so only the result is handed on
      refine Traced.once_bind_of_permitted first fun out _ => ?_
      split
      · split
        · intro allowed
          cases allowed _ (List.mem_append_left _ List.mem_cons_self)
        · exact fun _ => Traced.unmarked_pure _
      · exact fun _ => Traced.unmarked_pure _

omit once in
/-- Segments that follow each other from an index on. -/
def Consecutive (start : Nat) : List Segment → Prop
  | [] => True
  | segment :: segments => segment.start = start ∧ start ≤ segment.stop ∧
      Consecutive segment.stop segments

omit once in
theorem planFrom_consecutive (steps : List Step) {start index : Nat} (opened : start ≤ index) :
    Consecutive start (planFrom start index steps) := by
  induction steps generalizing start index with
  | nil => exact ⟨rfl, opened, trivial⟩
  | cons step steps ih =>
    unfold planFrom
    split
    · exact ⟨rfl, opened, ih (Nat.le_succ index)⟩
    · exact ih (Nat.le_succ_of_le opened)

theorem runSegments_once (spec : PipelineSpec) (toStep : Option Nat) (place : Place) {start : Nat}
    {segments : List Segment} (consecutive : Consecutive start segments) (msg : Message)
    (vars : Object) :
    SentOnce (Through place.position (start ≤ ·))
      (runSegments executor world below spec toStep place segments msg vars).events := by
  induction segments generalizing start msg vars with
  | nil => exact Traced.once_of_unmarked (Traced.unmarked_pure _)
  | cons segment segments ih =>
    obtain ⟨rfl, ordered, consecutive⟩ := consecutive
    refine sentOnce_lift_bind _ fun snapshot _ => ?_
    refine Traced.once_bind
      (runAttempts_once once spec toStep segment snapshot.1 place _ _ 1 snapshot.2 vars)
      (fun out _ => ?_) (fun _ => through_apart ?_)
      (fun _ through => through.mono fun _ bounds => bounds.1)
      (fun _ through => through.mono fun _ => Nat.le_trans ordered)
    · split
      · split
        · exact Traced.once_of_unmarked (Traced.unmarked_pure _)
        · exact ih consecutive _ _
      · exact Traced.once_of_unmarked (Traced.unmarked_pure _)
    · intro index before after
      omega

/-! ## The other modes -/

theorem runParallel_once (spec : PipelineSpec) (msg : Message) (vars : Object) (place : Place) :
    SentOnce (Under place.position)
      (runParallel executor world below spec msg vars place).events := by
  refine sentOnce_lift_bind _ fun input _ => ?_
  refine sentOnce_lift_bind _ fun _ _ => ?_
  have each : ∀ step ∈ spec.steps.zipIdx,
      SentOnce (Under (place.position ++ [.step step.2]))
        (runBranch executor world below input vars place step).events := by
    intro step _
    unfold runBranch
    split
    · exact Traced.once_of_unmarked (Traced.unmarked_fail _)
    · exact Traced.once_bind_unmarked (runStep_once once step.1 _ vars (place.step step.2))
        fun _ _ => Traced.unmarked_pure _
  have indices : (spec.steps.zipIdx.map Prod.snd).Nodup := by
    rw [List.zipIdx_map_snd]
    exact List.nodup_range'
  have apart : spec.steps.zipIdx.Pairwise fun left right => ∀ other,
      Under (place.position ++ [.step left.2]) other →
        Under (place.position ++ [.step right.2]) other → False :=
    (List.pairwise_map.mp indices).imp fun differ other =>
      under_apart fun same => differ (Crumb.step.inj same)
  refine Traced.once_bind_unmarked (Traced.once_gather each apart fun step _ other under => ?_)
    fun outcomes _ => ?_
  · exact (List.prefix_append _ _).trans under
  · exact Traced.unmarked_bind (Traced.unmarked_ofExcept _) fun _ => Traced.unmarked_ofExcept _

theorem runConditional_once (msg : Message) (vars : Object) (place : Place)
    (steps : List (Step × Nat)) :
    SentOnce (Under place.position)
      (runConditional executor world below msg vars place steps).events := by
  induction steps with
  | nil => exact Traced.once_of_unmarked (Traced.unmarked_pure _)
  | cons indexed steps ih =>
    refine sentOnce_lift_bind _ fun passes _ => ?_
    split
    · refine Traced.once_bind_unmarked ?_ fun _ _ => Traced.unmarked_pure _
      refine (runStep_once once _ msg vars (place.step indexed.2)).widen fun _ under => ?_
      exact (List.prefix_append _ _).trans under
    · exact ih

theorem runTee_once (spec : PipelineSpec) (msg : Message) (vars : Object) (place : Place) :
    SentOnce (Under place.position) (runTee executor below spec msg vars place).events := by
  refine sentOnce_lift_bind _ fun input _ => ?_
  refine sentOnce_lift_bind _ fun copy _ => ?_
  dsimp only
  split
  · exact Traced.once_bind_unmarked (once _ copy vars place none)
      fun _ _ => Traced.unmarked_pure _
  · have branch := once { spec with mode := .serial } copy [] place.detach none
    exact Traced.once_bind_unmarked branch fun _ _ => Traced.unmarked_pure _

end Below

/-! ## Whole executions -/

theorem runPipeline_once (fuel : Nat) : OnceBelow (runPipeline executor world fuel) := by
  induction fuel with
  | zero => exact fun _ _ _ _ _ => Traced.once_of_unmarked (Traced.unmarked_fail _)
  | succ fuel once =>
    intro spec msg vars place toStep
    unfold runPipeline
    split
    · exact (runSegments_once once spec toStep place
        (planFrom_consecutive spec.steps (Nat.le_refl 0)) msg vars).widen
        fun _ => under_of_through
    · exact runParallel_once once spec msg vars place
    · exact runConditional_once once msg vars place _
    · exact runTee_once once spec msg vars place
    · exact runTee_once once spec msg vars place

/-- In every run in which a segment is retried only after attempts that sent no unsafe
request, at most one unsafe request is sent for each position. -/
theorem unsafe_calls_sent_at_most_once (executor : Executor) (world : World) (spec : PipelineSpec)
    (msg : Message) (toStep : Option Nat)
    (retriesSafely : ∀ event ∈ (run executor world spec msg toStep).events,
      RetriesSafely event) :
    (unsafeSends (run executor world spec msg toStep).events).Nodup := by
  have once : SentOnce (Under []) (run executor world spec msg toStep).events := by
    refine sentOnce_lift_bind _ fun _ _ => ?_
    exact Traced.once_bind_unmarked
      (runPipeline_once _ spec msg (startVars executor msg) Place.root toStep)
      fun _ _ => Traced.unmarked_pure _
  exact (once retriesSafely).1

/-- Surroundings in which every request answers 503. -/
def World.unavailable : World :=
  .answering Tagged.codec fun _ _ request => request.response 503 none

/-- A pipeline of one call. -/
def postOrder : PipelineSpec :=
  .serial (some .stop) [Step.callTo "POST" "/orders"]

/-- The same call, one pipeline further in. -/
def nestedPostOrder : PipelineSpec :=
  .serial (some .stop) [Step.nested postOrder]

def orderRequest : Message :=
  .request .post "/pipelines/order" "acme" "trace"

theorem direct_post_sent_at_most_once :
    (unsafeSends (run (.plain .default) .unavailable postOrder orderRequest none).events).Nodup :=
  unsafe_calls_sent_at_most_once _ _ _ _ _ (by decide +kernel)

/-- The outer segment has no call of its own, so it counts as retryable and sends the unsafe
call of the nested pipeline once for each attempt. -/
theorem nested_post_sent_again :
    nestedPostOrder.validate (fun _ => none) = [] ∧
      unsafeSends
          (run (.plain .default) .unavailable nestedPostOrder orderRequest none).events =
        List.replicate 4 [.step 0, .step 0] := by
  decide +kernel

end Rs2Runtime.Pipeline
