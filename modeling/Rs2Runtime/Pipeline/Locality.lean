import Rs2Runtime.Pipeline.Invariant

/-!
Contract: what the end of a nested pipeline means to the pipeline around it.

Owns:
- that only a failing message aborts a pipeline;
- what a serial pipeline does after a nested pipeline step, as a function of how the nested
  pipeline ended;
- when its own actions decide that, and a nested `stop` that decides it instead.
-/

namespace Rs2Runtime.Pipeline

open Text Data Data.Outcome Json

variable {executor : Executor} {world : World} {below : Runner}

/-! ## Aborts carry failures -/

/-- In every mode and at every depth, a pipeline aborts with a failing message only. -/
theorem runPipeline_abortFails (executor : Executor) (world : World) (fuel : Nat)
    (spec : PipelineSpec) (msg : Message) (vars : Object) (place : Place) (toStep : Option Nat)
    {out : Flow × Object}
    (ended : (runPipeline executor world fuel spec msg vars place toStep).outcome = .ok out) :
    AbortFails out.1 := by
  have kept := ((emptyContract executor world).runPipeline_keeps fuel spec msg vars vars place
    toStep ⟨fun _ _ => trivial, trivial, trivial⟩ rfl trivial).2
  rw [ended] at kept
  cases kept with
  | ok fits => exact fits.2.2.2

/-! ## After a nested pipeline -/

/-- A step whose action is a nested pipeline. -/
structure NestedStep (step : Step) (inner : PipelineSpec) : Prop where
  call : step.call = none
  transform : step.transform = none
  split : step.split = none
  nested : step.pipeline = some inner

/-- How a serial pipeline goes on after a step handed over a flow. -/
def goOn (executor : Executor) (world : World) (below : Runner) (spec : PipelineSpec)
    (toStep : Option Nat) (place : Place) (step : Step) (steps : List (Step × Nat))
    (flow : Flow) (vars : Object) : Exec (Flow × Object) :=
  match afterStep spec step flow with
  | .next msg => runSteps executor world below spec toStep place steps msg vars
  | done => return (done, vars)

/-- A serial pipeline runs a nested pipeline, and goes on with what that hands over. -/
theorem runSteps_nested {step : Step} {inner : PipelineSpec} (isNested : NestedStep step inner)
    {spec : PipelineSpec} {toStep : Option Nat} {index : Nat}
    (reached : toStep.any (· < index) = false) {msg : Message} {vars : Object}
    (passes : stepConditionPasses step msg vars = .ok true) (place : Place)
    (steps : List (Step × Nat)) :
    runSteps executor world below spec toStep place ((step, index) :: steps) msg vars =
      below inner msg vars (place.step index) none >>= fun out =>
        goOn executor world below spec toStep place step steps out.1.fromNested out.2 := by
  have action : runStep executor world below step msg vars (place.step index) =
      below inner msg vars (place.step index) none >>= fun out =>
        pure (out.1.fromNested, out.2) := by
    have condition : lift (stepConditionPasses step msg vars) = (pure true : Exec Bool) := by
      rw [passes]
      rfl
    rw [runStep, condition, pure_bind, if_pos rfl, runAction, isNested.call, isNested.transform,
      isNested.nested]
  rw [runSteps, if_neg (by simp [reached]), isNested.split, if_neg (by simp), action, bind_assoc]
  simp only [pure_bind]
  rfl

/-- The pipeline goes on as after a step that produced the message of the flow: its own actions
decide. -/
def OwnActionDecides (spec : PipelineSpec) (step : Step) (flow : Flow) : Prop :=
  afterStep spec step flow.fromNested = afterStep spec step (.next flow.message)

/-- A nested `stop` is what the pipeline would do itself. -/
def StopsItself (spec : PipelineSpec) (step : Step) : Prop :=
  spec.failAction = .stop ∧ step.capture = none ∧ step.tryMode = false

theorem afterStep_failing {msg : Message} (failing : msg.isOk = false) (spec : PipelineSpec)
    (step : Step) : afterStep spec step (.next msg) = .abort msg ↔ StopsItself spec step := by
  unfold afterStep StopsItself
  dsimp only
  by_cases kept : step.capture = none ∧ step.tryMode = false
  · rw [if_pos (by simp [failing, kept.1, kept.2])]
    cases spec.failAction <;> simp [kept]
  · rw [if_neg (by simpa [failing] using kept)]
    split <;> simp [kept]

theorem ownActionDecides_iff {flow : Flow} (fails : AbortFails flow) (spec : PipelineSpec)
    (step : Step) :
    OwnActionDecides spec step flow ↔ ∀ msg, flow = .abort msg → StopsItself spec step := by
  cases flow with
  | next msg =>
    refine ⟨fun _ other same => ?_, fun _ => rfl⟩
    cases same
  | exit msg =>
    refine ⟨fun _ other same => ?_, fun _ => rfl⟩
    cases same
  | abort msg =>
    have failing := fails msg rfl
    have decided := afterStep_failing failing spec step
    constructor
    · rintro same other -
      exact decided.mp same.symm
    · intro stops
      exact (decided.mpr (stops msg rfl)).symm

/-- After every run of a nested pipeline in a serial one, the actions of the outer pipeline
decide how it goes on exactly if the nested one did not stop, or the outer one would stop on the
same message; and then it goes on as after a step that produced that message. -/
theorem nested_actions_are_local_iff (executor : Executor) (world : World) (fuel : Nat)
    (spec inner : PipelineSpec) (step : Step) (index : Nat) (steps : List (Step × Nat))
    (isNested : NestedStep step inner) (msg : Message) (vars : Object) (place : Place)
    (toStep : Option Nat) (reached : toStep.any (· < index) = false)
    (passes : stepConditionPasses step msg vars = .ok true) (flow : Flow) (after : Object)
    (ended : (runPipeline executor world fuel inner msg vars (place.step index) none).outcome =
      .ok (flow, after)) :
    (OwnActionDecides spec step flow ↔ ∀ failed, flow = .abort failed → StopsItself spec step) ∧
    (OwnActionDecides spec step flow →
      runSteps executor world (runPipeline executor world fuel) spec toStep place
          ((step, index) :: steps) msg vars =
        runPipeline executor world fuel inner msg vars (place.step index) none >>= fun _ =>
          goOn executor world (runPipeline executor world fuel) spec toStep place step steps
            (.next flow.message) after) := by
  have fails : AbortFails flow :=
    runPipeline_abortFails executor world fuel inner msg vars _ none ended
  refine ⟨ownActionDecides_iff fails spec step, fun decides => ?_⟩
  rw [runSteps_nested isNested reached passes]
  refine Traced.bind_congr_of_ok fun out same => ?_
  rw [ended] at same
  cases same
  unfold goOn
  rw [decides]

/-! ## A nested `stop` -/

/-- A nested call that fails under an action, as a step. -/
def failingChild (childFails : Action) : Step :=
  Step.nested (.serial (some childFails) [Step.callTo "GET" "/a"])

/-- A nested call that fails, then another call; the outer pipeline goes on with failures. -/
def childThenCall (childFails : Action) : PipelineSpec :=
  .serial (some .next) [failingChild childFails, Step.callTo "GET" "/b"]

/-- Every request is answered with 500. -/
def World.failing : World :=
  World.answering Tagged.codec fun _ _ request => request.response 500 none

def localityRequest : Message :=
  Message.request .get "/p" "t" "trace"

/-- The run of the nested pipeline alone. -/
def runChild (childFails : Action) : Exec (Flow × Object) :=
  runPipeline (.plain .noRetry) .failing 16 (.serial (some childFails) [Step.callTo "GET" "/a"])
    localityRequest [] (Place.root.step 0) none

def Flow.isAbort : Flow → Bool
  | .abort _ => true
  | _ => false

/-- The path of a request that is sent. -/
def sentPath : Event → Option Str
  | .send _ _ _ _ request => some request.url.path
  | _ => none

/-- The paths the whole pipeline calls. -/
def calledPaths (childFails : Action) : List Str :=
  (run (.plain .noRetry) .failing (childThenCall childFails) localityRequest none).events.filterMap
    sentPath

theorem isNested_failingChild (childFails : Action) :
    NestedStep (failingChild childFails) (.serial (some childFails) [Step.callTo "GET" "/a"]) :=
  ⟨rfl, rfl, rfl, rfl⟩

/-- Whether the nested pipeline aborts; none when it fails. -/
def childAborts (childFails : Action) : Option Bool :=
  (runChild childFails).outcome.toOption.map fun out => out.1.isAbort

theorem exists_runChild {childFails : Action} {aborts : Bool}
    (ends : childAborts childFails = some aborts) :
    ∃ flow after, (runChild childFails).outcome = .ok (flow, after) ∧ flow.isAbort = aborts := by
  unfold childAborts at ends
  cases ended : (runChild childFails).outcome with
  | error failure =>
    rw [ended] at ends
    cases ends
  | ok out =>
    rw [ended] at ends
    exact ⟨out.1, out.2, rfl, Option.some.inj ends⟩

theorem childAborts_end : childAborts .end_ = some false := by
  decide +kernel

theorem childAborts_stop : childAborts .stop = some true := by
  decide +kernel

theorem abortFails_runChild {childFails : Action} {flow : Flow} {after : Object}
    (ended : (runChild childFails).outcome = .ok (flow, after)) : AbortFails flow := by
  unfold runChild at ended
  exact runPipeline_abortFails _ _ _ _ _ _ _ none ended

theorem nested_end_is_local :
    ∃ flow after, (runChild .end_).outcome = .ok (flow, after) ∧
      OwnActionDecides (childThenCall .end_) (failingChild .end_) flow := by
  obtain ⟨flow, after, ended, notAborted⟩ := exists_runChild childAborts_end
  refine ⟨flow, after, ended, ?_⟩
  unfold runChild at ended
  refine (nested_actions_are_local_iff (.plain .noRetry) .failing 16 (childThenCall .end_) _
    (failingChild .end_) 0 [] (isNested_failingChild .end_) localityRequest [] Place.root none rfl
    rfl flow after ended).1.mpr fun failed same => ?_
  rw [same] at notAborted
  cases notAborted

/-- A nested `stop` ends the outer pipeline, whose own action is to go on: the second call is
not made. -/
theorem nested_stop_unwinds_parent :
    (∃ flow after, (runChild .stop).outcome = .ok (flow, after) ∧
      ¬ OwnActionDecides (childThenCall .stop) (failingChild .stop) flow) ∧
    calledPaths .stop = [("/a" : Str)] ∧ calledPaths .end_ = [("/a" : Str), ("/b" : Str)] := by
  refine ⟨?_, by decide +kernel, by decide +kernel⟩
  obtain ⟨flow, after, ended, aborted⟩ := exists_runChild childAborts_stop
  refine ⟨flow, after, ended, fun decides => ?_⟩
  have fails := abortFails_runChild ended
  cases flow with
  | next msg => cases aborted
  | exit msg => cases aborted
  | abort msg =>
    have stops := (ownActionDecides_iff fails _ _).mp decides msg rfl
    cases stops.1

end Rs2Runtime.Pipeline
