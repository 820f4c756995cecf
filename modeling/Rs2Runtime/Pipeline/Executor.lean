import Rs2Runtime.Pipeline.Call

/-!
Contract: the pipeline executor.

Owns:
- serial execution in segments, with snapshots and segment retries;
- parallel, conditional and tee modes, splits and joins;
- the variables an invocation starts from;
- the recursion through nested pipelines, bounded by the depth limit.

Does not own: step reports, the wall-clock limit, or concurrency limits, which only
restrict the order in which branches complete.
-/

namespace Rs2Runtime.Pipeline

open Text Data Data.Outcome Json

/-- Execution of a pipeline one level below: message, variables, place, and the last step
to run. -/
abbrev Runner :=
  PipelineSpec → Message → Object → Place → Option Nat → Exec (Flow × Object)

namespace Flow

/-- What a subpipeline hands to its parent: its `end` is local. -/
def fromNested : Flow → Flow
  | .exit msg => .next msg
  | other => other

/-- What the chosen step of a conditional pipeline hands on. -/
def fromChosen : Flow → Flow
  | .next msg => .exit msg
  | other => other

end Flow

variable (executor : Executor) (world : World) (below : Runner)

/-! ## Steps -/

def stepConditionPasses (step : Step) (msg : Message) (vars : Object) : Except RsError Bool :=
  match step.condition with
  | none => .ok true
  | some source => Condition.passes source msg vars

/-- The action of a step whose condition passed. -/
def runAction (step : Step) (msg : Message) (vars : Object) (place : Place) :
    Exec (Flow × Object) :=
  match step.call with
  | some call => runCall executor world step call msg vars place
  | none =>
    match step.transform with
    | some template => lift (runTransform executor world step template msg vars)
    | none =>
      match step.pipeline with
      | some inner => do
          let out ← below inner msg vars place none
          return (out.1.fromNested, out.2)
      | none =>
        Traced.fail (.error
          (.badRequest "step has no action (call/transform/pipeline/split)"))

def runStep (step : Step) (msg : Message) (vars : Object) (place : Place) :
    Exec (Flow × Object) := do
  let passes ← lift (stepConditionPasses step msg vars)
  if passes then
    runAction executor world below step msg vars place
  else
    return (.next msg, vars)

/-! ## Splits -/

/-- The named elements of a split body. -/
def splitElements (json : Value) : List (Str × Value) :=
  match json with
  | .arr items => items.zipIdx.map fun item => (natStr item.2, item.1)
  | .obj fields => fields
  | other => [("0", other)]

/-- The remaining steps after a split. -/
def afterSplit (spec : PipelineSpec) (splitIndex : Nat) : PipelineSpec where
  mode := .serial
  onFail := spec.onFail
  onSucceed := spec.onSucceed
  concurrency := spec.concurrency
  join := none
  steps := spec.steps.drop (splitIndex + 1)

/-- The input of a split. -/
def splitInput (msg : Message) : Except RsError Value :=
  match msg.body with
  | some body => (body.asJson world.codec executor.limits.materializeCap).map Prod.fst
  | none => .error (.badRequest "jsonSplit requires a JSON body")

/-- Run the remaining steps for one element. -/
def runElement (rest : PipelineSpec) (splitIndex : Nat) (msg : Message) (vars : Object)
    (place : Place) (element : Str × Value) : Exec (Str × Message) := do
  let input := { cloneWithBody msg (some (Body.fromJson world.codec element.2)) with
    name := some element.1 }
  if rest.steps.isEmpty then
    return (element.1, input)
  else
    let out ← below rest input vars (place.element splitIndex element.1) none
    return (element.1, out.1.message)

/-- The order of element names: as numbers where both are, else as texts. -/
def nameLe (left right : Str × Message) : Prop :=
  match parseU64 left.1, parseU64 right.1 with
  | some a, some b => a ≤ b
  | _, _ => compareOfLessAndEq left.1 right.1 ≠ .gt

instance : DecidableRel nameLe := fun left right => by
  unfold nameLe
  split <;> infer_instance

/-- Run the remaining steps for each element; the results are put back in order. -/
def splitResults (spec : PipelineSpec) (splitIndex : Nat) (msg : Message) (vars : Object)
    (place : Place) : Exec (List (Str × Message)) := do
  let json ← lift (splitInput executor world msg)
  let elements := splitElements json
  let _ ← lift (require (elements.length ≤ executor.limits.maxFanout)
    (RsError.limitExceeded "pipeline_fanout" (RsError.natValue elements.length)
      (RsError.natValue executor.limits.maxFanout)))
  let outcomes ← Traced.gather
    (elements.map (runElement world below (afterSplit spec splitIndex) splitIndex msg vars place))
  let named ← Traced.ofExcept ((world.completed place outcomes).mapM id)
  return named.insertionSort nameLe

/-- Run the remaining steps for each element and join the results. -/
def runSplit (spec : PipelineSpec) (splitIndex : Nat) (msg : Message) (vars : Object)
    (place : Place) : Exec (Flow × Object) := do
  let named ← splitResults executor world below spec splitIndex msg vars place
  let joined ← lift (join executor world named (cloneWithBody msg none))
  return (.exit joined, vars)

/-! ## Segments -/

/-- Apply the pipeline's actions to what a step hands on. -/
def afterStep (spec : PipelineSpec) (step : Step) : Flow → Flow
  | .next out =>
    if !out.isOk && step.capture.isNone && !step.tryMode then
      match spec.failAction with
      | .stop => .abort out
      | .end_ => .exit out
      | .next => .next out
    else if spec.succeedAction = .end_ then
      .exit out
    else
      .next out
  | other => other

/-- Run indexed steps one after another, up to `toStep`.  A split consumes the steps after
it. -/
def runSteps (spec : PipelineSpec) (toStep : Option Nat) (place : Place) :
    List (Step × Nat) → Message → Object → Exec (Flow × Object)
  | [], msg, vars => return (.next msg, vars)
  | (step, index) :: steps, msg, vars =>
    if toStep.any (· < index) then
      return (.exit msg, vars)
    else if step.split.isSome then do
      let passes ← lift (stepConditionPasses step msg vars)
      if passes then
        runSplit executor world below spec index msg vars place
      else
        runSteps spec toStep place steps msg vars
    else do
      let out ← runStep executor world below step msg vars (place.step index)
      match afterStep spec step out.1 with
      | .next msg => runSteps spec toStep place steps msg out.2
      | done => return (done, out.2)

/-- The indexed steps of a segment. -/
def segmentSteps (spec : PipelineSpec) (segment : Segment) : List (Step × Nat) :=
  (spec.steps.zipIdx.take segment.stop).drop segment.start

/-- Attempts of a segment: more than one only if its input can be restored and every call
among its own steps may be retried. -/
def segmentAttempts (spec : PipelineSpec) (segment : Segment)
    (snapshot : Option (Option Body)) : Nat :=
  let retryable := snapshot.isSome && (segmentSteps spec segment).all fun step =>
    step.1.effectClass.all fun effect => effect.permitsRetry true
  if retryable && executor.retry.enabled then max executor.retry.maxAttempts 1 else 1

/-- The input of an attempt. -/
def attemptMessage (snapshot : Option (Option Body)) (msg : Message) : Message :=
  match snapshot with
  | some body => cloneWithBody msg (body.bind cloneBody)
  | none => msg

/-- The variables after an attempt: with retries allowed, an aborted attempt leaves none. -/
def attemptVars (single : Bool) (before : Object) (out : Flow × Object) : Object :=
  match out.1 with
  | .abort _ => if single then out.2 else before
  | _ => out.2

/-- Whether an event is a request of an unsafe class. -/
def isUnsafeSend : Event → Bool
  | .send _ _ effect _ _ => effect = .unsafe_
  | _ => false

/-- One attempt of a segment. -/
def runSegment (spec : PipelineSpec) (toStep : Option Nat) (segment : Segment)
    (snapshot : Option (Option Body)) (place : Place) (attempt : Nat) (msg : Message)
    (vars : Object) : Exec (Flow × Object) :=
  runSteps executor world below spec toStep (place.attempt attempt) (segmentSteps spec segment)
    (attemptMessage snapshot msg) vars

/-- The attempt loop of a segment: `remaining` further attempts are allowed. -/
def runAttempts (spec : PipelineSpec) (toStep : Option Nat) (segment : Segment)
    (snapshot : Option (Option Body)) (place : Place) (single : Bool) :
    (remaining attempt : Nat) → Message → Object → Exec (Flow × Object)
  | 0, attempt, msg, vars => do
      let out ← runSegment executor world below spec toStep segment snapshot place attempt msg vars
      return (out.1, attemptVars single vars out)
  | remaining + 1, attempt, msg, vars => do
      let run := runSegment executor world below spec toStep segment snapshot place attempt msg vars
      let out ← run
      match out.1 with
      | .abort failed =>
        if executor.retry.retryableStatus (failed.status.getD 500) then do
          let _ ← Traced.emit (Event.retry place (run.events.any isUnsafeSend))
          runAttempts spec toStep segment snapshot place single remaining (attempt + 1) msg vars
        else
          return (out.1, attemptVars single vars out)
      | _ => return (out.1, attemptVars single vars out)

/-- Run segments one after another. -/
def runSegments (spec : PipelineSpec) (toStep : Option Nat) (place : Place) :
    List Segment → Message → Object → Exec (Flow × Object)
  | [], msg, vars => return (.next msg, vars)
  | segment :: segments, msg, vars => do
      let snapshot ← lift (snapshotBody executor msg)
      let attempts := segmentAttempts executor spec segment snapshot.1
      let out ← runAttempts executor world below spec toStep segment snapshot.1 place
        (attempts = 1) (attempts - 1) 1 snapshot.2 vars
      match out.1 with
      | .next msg =>
        if toStep.any (· < segment.stop) then
          return (.exit msg, out.2)
        else
          runSegments spec toStep place segments msg out.2
      | done => return (done, out.2)

/-- Serial mode. -/
def runSerial (spec : PipelineSpec) (msg : Message) (vars : Object) (place : Place)
    (toStep : Option Nat) : Exec (Flow × Object) :=
  runSegments executor world below spec toStep place (plan spec) msg vars

/-! ## Parallel mode -/

/-- What a branch of a parallel pipeline ends with. -/
structure Branch where
  index : Nat
  step : Step
  flow : Flow
  vars : Object

/-- Run one branch on a copy of the input. -/
def runBranch (msg : Message) (vars : Object) (place : Place) (step : Step × Nat) :
    Exec Branch :=
  match tryClone msg with
  | none => Traced.fail (.error (.internal "parallel branch over unmaterialized stream"))
  | some copy => do
      let out ← runStep executor world below step.1 copy vars (place.step step.2)
      return ⟨step.2, step.1, out.1, out.2⟩

/-- What a parallel pipeline has gathered: a failed branch, the variables, and the named
results by index. -/
structure Gathered where
  aborted : Option Message
  vars : Object
  results : OrderedMap Nat (Str × Message)

/-- Take in branches in the order of completion, up to the first that fails. -/
def gatherBranches (spec : PipelineSpec) :
    List (Except Failure Branch) → Object → OrderedMap Nat (Str × Message) →
      Except Failure Gathered
  | [], vars, results => .ok ⟨none, vars, results⟩
  | .error failure :: _, _, _ => .error failure
  | .ok branch :: branches, vars, results =>
    match branch.flow with
    | .abort out => .ok ⟨some out, vars, results⟩
    | .next out | .exit out =>
      if !out.isOk && spec.failAction = .stop && branch.step.capture.isNone then
        .ok ⟨some out, vars, results⟩
      else
        let name := (branch.step.name.or out.name).getD (natStr branch.index)
        gatherBranches spec branches (OrderedMap.extend vars branch.vars)
          (OrderedMap.insert results branch.index (name, out))

/-- Refuse a fan-out whose copies exceed the aggregate budget.  The product saturates at the
largest 64-bit number. -/
def checkFanoutBudget (count bodySize : Nat) : Except RsError Unit :=
  let total := min (count * bodySize) (2 ^ 64 - 1)
  require (total ≤ executor.limits.maxFanoutBytes)
    (.limitExceeded "pipeline_fanout_bytes" (RsError.natValue total)
      (RsError.natValue executor.limits.maxFanoutBytes))

/-- Join what a parallel pipeline gathered. -/
def finishParallel (msg : Message) (gathered : Gathered) : Except RsError (Flow × Object) :=
  match gathered.aborted with
  | some out => .ok (.abort out, gathered.vars)
  | none =>
    (join executor world (gathered.results.map Prod.snd) (cloneWithBody msg none)).map
      fun joined => (.next joined, gathered.vars)

def runParallel (spec : PipelineSpec) (msg : Message) (vars : Object) (place : Place) :
    Exec (Flow × Object) := do
  let input ← lift (materializeIfNeeded executor msg)
  let _ ← lift (checkFanoutBudget executor spec.steps.length
    ((input.body.bind Body.size).getD 0))
  let outcomes ← Traced.gather
    (spec.steps.zipIdx.map (runBranch executor world below input vars place))
  let gathered ← Traced.ofExcept
    (gatherBranches spec (world.completed place outcomes) vars [])
  lift (finishParallel executor world input gathered)

/-! ## Conditional and tee modes -/

/-- The first step whose condition passes runs, and ends the pipeline. -/
def runConditional (msg : Message) (vars : Object) (place : Place) :
    List (Step × Nat) → Exec (Flow × Object)
  | [] => return (.next msg, vars)
  | (step, index) :: steps => do
      let passes ← lift (stepConditionPasses step msg vars)
      if passes then
        let out ← runStep executor world below { step with condition := none } msg vars
          (place.step index)
        return (out.1.fromChosen, out.2)
      else
        runConditional msg vars place steps

/-- The copy a tee branch runs on. -/
def teeCopy (msg : Message) : Except RsError Message :=
  match tryClone msg with
  | some copy => .ok copy
  | none => .error (.internal "tee branch over unmaterialized stream")

/-- The steps run on a copy; the message itself continues.  A branch that is not waited for
starts without variables, and its outcome is dropped. -/
def runTee (spec : PipelineSpec) (msg : Message) (vars : Object) (place : Place) :
    Exec (Flow × Object) := do
  let input ← lift (materializeIfNeeded executor msg)
  let copy ← lift (teeCopy input)
  let branch := { spec with mode := .serial }
  if spec.mode = .teeWait then
    let _ ← below branch copy vars place none
    return (.next input, vars)
  else
    let _ ← Traced.detach (below branch copy [] place.detach none)
    return (.next input, vars)

/-! ## Pipelines -/

/-- Run a pipeline; the fuel is the depth that is left. -/
def runPipeline : Nat → Runner
  | 0, _, _, _, _, _ =>
    Traced.fail (.error (.limitExceeded "pipeline_depth"
      (RsError.natValue (executor.limits.maxDepth + 1))
      (RsError.natValue executor.limits.maxDepth)))
  | fuel + 1, spec, msg, vars, place, toStep =>
    match spec.mode with
    | .serial => runSerial executor world (runPipeline fuel) spec msg vars place toStep
    | .parallel => runParallel executor world (runPipeline fuel) spec msg vars place
    | .conditional =>
      runConditional executor world (runPipeline fuel) msg vars place spec.steps.zipIdx
    | .tee | .teeWait => runTee executor (runPipeline fuel) spec msg vars place

/-- The caller as the variables bind it: id and roles, then the extra claims. -/
def userObject (principal : Principal) : Object :=
  OrderedMap.extend
    (OrderedMap.ofList [
      ("email", .str principal.id),
      ("roles", .arr (principal.roles.map Value.str))])
    principal.extra

/-- The triggering URL as a value. -/
def urlValue (url : MsgUrl) : Value :=
  let query := ((url.query.splitOn '&').filter (· ≠ [])).foldl
    (fun (query : Object) pair =>
      let key := (MsgUrl.queryPair pair).1
      match url.queryParam key with
      | some value =>
        if (query.get? key).isSome then query else query.insert key (.str value)
      | none => query) []
  .object [("path", .arr (url.serviceSegments.map Value.str)), ("query", .obj query)]

/-- The variables with the caller bound under both of its names. -/
def bindCaller (vars : Object) : Option Principal → Object
  | some principal =>
    (vars.insert "_user" (.obj (userObject principal))).insert "principal"
      (.obj (userObject principal))
  | none => vars

/-- The variables an invocation starts from. -/
def startVars (msg : Message) : Object :=
  (bindCaller executor.initialVars msg.principal).insert "_url" (urlValue msg.url)

/-- Run a pipeline over a message. -/
def run (spec : PipelineSpec) (msg : Message) (toStep : Option Nat) : Exec Message := do
  let _ ← lift (require (countSteps spec ≤ executor.limits.maxSteps)
    (RsError.limitExceeded "pipeline_steps" (RsError.natValue (countSteps spec))
      (RsError.natValue executor.limits.maxSteps)))
  let out ← runPipeline executor world (executor.limits.maxDepth + 1) spec msg
    (startVars executor msg) Place.root toStep
  return out.1.message

end Rs2Runtime.Pipeline
