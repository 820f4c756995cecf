import Rs2Runtime.Message.Stream
import Rs2Runtime.Pipeline.Locality

/-!
Contract: the modifiers `as` and `try` of a step, over what its action produced.

Owns:
- the action of a step without its modifiers, and the execution of a step as the action
  followed by what its kind makes of the modifiers;
- that the message left behind has the body and the status of the message before;
- what uniform modifiers are, when a step has them, and steps that do not.
-/

namespace Rs2Runtime.Pipeline

open Text Data Data.Outcome Json

/-! ## Actions and modifiers -/

/-- What the action of a step produced. -/
inductive Produced where
  | response (msg : Message)
  | value (out : Value)
  | flow (flow : Flow)

/-- What an action leaves: its product, the message behind it and the variables. -/
structure Made where
  produced : Produced
  left : Message
  vars : Object

variable (executor : Executor) (world : World) (below : Runner)

/-- The action of a call: request and response, under the name of the step. -/
def makeCall (step : Step) (call : CallSpec) (msg : Message) (vars : Object) (place : Place) :
    Exec Made := do
  let method ← lift (parseMethod call)
  let context := interpolationContext executor world msg vars
  let _ ← Traced.emit (Event.call place msg context)
  let url ← lift (PathPattern.resolve world.codec call.url executor.url context)
  let body ← lift (callBody executor method step.capture.isSome msg)
  let isExternal ← classify url
  let headers ← lift (resolveHeaders executor world call context)
  let result ← sendCall executor world step call place url isExternal method headers body
  let response ← lift (callResponse world body.left isExternal result)
  return ⟨.response { response with name := step.name.or (response.name.or body.left.name) },
    body.left, vars⟩

/-- The action of a transform: the value of its template. -/
def makeValue (template : Value) (msg : Message) (vars : Object) : Except RsError Made := do
  let read ← transformInput executor world msg
  let out ← applyTemplate world.evaluate read.1 (transformVars executor template read.2 vars)
    template
  return ⟨.value out, read.2, vars⟩

/-- The action of a step. -/
def make (step : Step) (msg : Message) (vars : Object) (place : Place) : Exec Made :=
  match step.call with
  | some call => makeCall executor world step call msg vars place
  | none =>
    match step.transform with
    | some template => lift (makeValue executor world template msg vars)
    | none =>
      match step.pipeline with
      | some inner => do
          let out ← below inner msg vars place none
          return ⟨.flow out.1, msg, out.2⟩
      | none =>
        Traced.fail (.error
          (.badRequest "step has no action (call/transform/pipeline/split)"))

/-- What each kind of step makes of its modifiers. -/
def settleStep (step : Step) (made : Made) : Except RsError (Flow × Object) :=
  match made.produced with
  | .response out =>
    match step.capture with
    | some capture =>
      (resultValue executor world out).map fun value =>
        (.next made.left, made.vars.insert (captureName capture) value)
    | none =>
      if !out.isOk && step.tryMode then
        .ok (.next { out with
          body := some (Body.fromJson world.codec (errorValue executor out))
          status := some 200 }, made.vars)
      else
        .ok (.next out, made.vars)
  | .value out =>
    match step.capture with
    | some capture => .ok (.next made.left, made.vars.insert (captureName capture) out)
    | none =>
      match ResponseEnvelope.detect out with
      | some inner =>
        (ResponseEnvelope.apply world.codec inner made.left).map fun shaped =>
          (.next shaped, made.vars)
      | none =>
        .ok (.next { made.left with
          body := some (Body.fromJson world.codec out)
          status := some 200 }, made.vars)
  | .flow flow => .ok (flow.fromNested, made.vars)

/-- The flow of a step without modifiers. -/
def Made.plain (made : Made) : Except RsError Flow :=
  match made.produced with
  | .response out => .ok (.next out)
  | .value out =>
    match ResponseEnvelope.detect out with
    | some inner => (ResponseEnvelope.apply world.codec inner made.left).map Flow.next
    | none =>
      .ok (.next { made.left with
        body := some (Body.fromJson world.codec out)
        status := some 200 })
  | .flow flow => .ok flow.fromNested

/-- The result of a step as a value. -/
def Made.result (made : Made) : Except RsError Value :=
  match made.produced with
  | .response out => resultValue executor world out
  | .value out => .ok out
  | .flow flow => resultValue executor world flow.message

theorem lift_bind_lift {α β : Type} (first : Except RsError α) (next : α → Except RsError β) :
    lift (first >>= next) = (lift first >>= fun value => lift (next value) : Exec β) := by
  cases first <;> rfl

/-- A step runs its action, and then its modifiers. -/
theorem runAction_eq_make (step : Step) (msg : Message) (vars : Object) (place : Place) :
    runAction executor world below step msg vars place =
      make executor world below step msg vars place >>= fun made =>
        lift (settleStep executor world step made) := by
  unfold runAction make
  cases step.call with
  | some call =>
    have finish : ∀ left isExternal result,
        lift (finishCall executor world step left isExternal result vars) =
          lift (callResponse world left isExternal result) >>= fun response =>
            lift (settleStep executor world step
              ⟨.response { response with
                name := step.name.or (response.name.or left.name) }, left, vars⟩) :=
      fun left isExternal result => lift_bind_lift _ _
    simp only [runCall, makeCall, bind_assoc, pure_bind, finish]
  | none =>
    cases step.transform with
    | some template =>
      dsimp only
      rw [← lift_bind_lift]
      congr 1
      simp only [runTransform, makeValue, bind_assoc, pure_bind]
      refine bind_congr fun read => bind_congr fun out => ?_
      unfold settleStep
      cases step.capture with
      | some capture => rfl
      | none =>
        dsimp only
        cases ResponseEnvelope.detect out with
        | some inner =>
          dsimp only
          cases ResponseEnvelope.apply world.codec inner read.2 <;> rfl
        | none => rfl
    | none =>
      cases step.pipeline with
      | some inner =>
        simp only [bind_assoc, pure_bind]
        rfl
      | none => rfl

/-! ## The message left behind -/

variable {executor world below}

/-- A message has the status and the content of another. -/
structure SameContent (msg other : Message) : Prop where
  status : msg.status = other.status
  body : msg.body.map Body.content = other.body.map Body.content

theorem SameContent.refl (msg : Message) : SameContent msg msg :=
  ⟨rfl, rfl⟩

variable {msg : Message} {step : Step} {made : Made}

theorem sameContent_materializeIfNeeded {read : Message}
    (done : materializeIfNeeded executor msg = .ok read) : SameContent read msg := by
  unfold materializeIfNeeded at done
  split at done
  · cases done
    exact .refl msg
  next body isBody =>
    split at done
    · obtain ⟨materialized, ok, rfl⟩ := map_eq_ok.mp done
      exact ⟨rfl, by rw [isBody]; exact congrArg some (Body.content_of_materialize ok)⟩
    · cases done
      exact .refl msg

theorem sameContent_transformInput {read : Value × Message}
    (done : transformInput executor world msg = .ok read) : SameContent read.2 msg := by
  unfold transformInput at done
  split at done
  · cases done
    exact .refl msg
  next body isBody =>
    obtain ⟨value, ok, rfl⟩ := map_eq_ok.mp done
    exact ⟨rfl, by rw [isBody]; exact congrArg some (Body.content_of_asAny ok)⟩

theorem sameContent_callBody {method : Method} {body : CallBody}
    (taken : callBody executor method true msg = .ok body) : SameContent body.left msg := by
  unfold callBody at taken
  split at taken
  · cases taken
    exact .refl msg
  · rw [if_pos rfl] at taken
    obtain ⟨kept, ok, rfl⟩ := map_eq_ok.mp taken
    exact sameContent_materializeIfNeeded ok

theorem anything {α : Type} (outcome : Except RsError α) :
    Traced.Yields (fun _ : Event => True) (fun _ => True) (lift outcome) :=
  Contract.yields_lift fun _ _ => trivial

/-- The message behind the action of a captured step is the message before it. -/
theorem sameContent_left {capture : Str} (captured : step.capture = some capture) {vars : Object}
    {place : Place} (acted : (make executor world below step msg vars place).outcome = .ok made) :
    SameContent made.left msg := by
  have yields : Traced.Yields (fun _ : Event => True) (fun made => SameContent made.left msg)
      (make executor world below step msg vars place) := by
    unfold make
    split
    next call _ =>
      unfold makeCall
      refine Traced.yields_bind (anything _) fun method _ => ?_
      refine Traced.yields_bind (Traced.yields_emit trivial) fun _ _ => ?_
      refine Traced.yields_bind (anything _) fun url _ => ?_
      refine Traced.yields_bind (Contract.yields_lift fun _ taken => taken) fun body taken => ?_
      have kept : SameContent body.left msg := by
        rw [captured] at taken
        exact sameContent_callBody taken
      refine Traced.yields_bind ⟨fun _ _ => trivial, fun _ _ => trivial⟩ fun isExternal _ => ?_
      refine Traced.yields_bind (anything _) fun headers _ => ?_
      refine Traced.yields_bind ⟨fun _ _ => trivial, fun _ _ => trivial⟩ fun result _ => ?_
      refine Traced.yields_bind (anything _) fun response _ => ?_
      exact Traced.yields_pure kept
    next =>
      split
      next template _ =>
        refine Contract.yields_lift fun made done => ?_
        simp only [makeValue, bind_eq_ok, pure_eq_ok] at done
        obtain ⟨read, input, value, -, rfl⟩ := done
        exact sameContent_transformInput input
      next =>
        split
        next inner _ =>
          refine Traced.yields_bind ⟨fun _ _ => trivial, fun _ _ => trivial⟩ fun out _ => ?_
          exact Traced.yields_pure (.refl msg)
        next => exact Traced.yields_fail _
  exact yields.2 made acted

/-! ## Uniform modifiers -/

variable (executor world) in
/-- The modifiers of a step do the same for every kind of action. -/
structure Uniform (step : Step) (msg : Message) (made : Made)
    (outcome : Except Failure (Flow × Object)) : Prop where
  /-- `as` binds the result and keeps the message. -/
  captured : ∀ capture, step.capture = some capture →
    ∀ value, made.result executor world = .ok value →
      ∃ kept after, outcome = .ok (.next kept, after) ∧ SameContent kept msg ∧
        after.get? (captureName capture) = some value
  /-- `try` makes a failure the content of a successful message. -/
  tried : step.capture = none → step.tryMode = true →
    ∀ flow, made.plain world = .ok flow → flow.message.isOk = false →
      ∃ recovered, outcome = .ok (.next recovered, made.vars) ∧ recovered.status = some 200 ∧
        recovered.body = some (Body.fromJson world.codec (errorValue executor flow.message))

variable (executor world) in
/-- By coincidence, a nested pipeline leaves the message as it was and binds the variable itself
to what its result is. -/
def Coincides (capture : Str) (msg : Message) (flow : Flow) (vars : Object) : Prop :=
  ∀ value, resultValue executor world flow.message = .ok value →
    ∃ kept, flow.fromNested = .next kept ∧ SameContent kept msg ∧
      vars.get? (captureName capture) = some value

variable (executor world) in
/-- The kind of the action makes no difference to its modifiers: a nested pipeline has none that
it would have to read, or what it does coincides with a capture. -/
def KindIrrelevant (step : Step) (msg : Message) (made : Made) : Prop :=
  match made.produced with
  | .response _ => True
  | .value out =>
    step.capture = none → step.tryMode = true →
      ∀ inner shaped, ResponseEnvelope.detect out = some inner →
        ResponseEnvelope.apply world.codec inner made.left = .ok shaped → shaped.isOk = true
  | .flow flow =>
    step.capture = none ∧ (step.tryMode = true → flow.message.isOk = true) ∨
      ∃ capture, step.capture = some capture ∧
        Coincides executor world capture msg flow made.vars

theorem isOk_of_status (succeeded : msg.status = some 200) : msg.isOk = true := by
  rw [Message.isOk, succeeded]
  rfl

theorem uniform_response {out : Message} (produced : made.produced = .response out)
    (left : ∀ capture, step.capture = some capture → SameContent made.left msg) :
    Uniform executor world step msg made
      ((settleStep executor world step made).mapError Failure.error) where
  captured := by
    intro capture isCapture value isResult
    rw [Made.result, produced] at isResult
    refine ⟨made.left, made.vars.insert (captureName capture) value, ?_, left capture isCapture,
      OrderedMap.get?_insert_self _ _ _⟩
    simp only [settleStep, produced, isCapture, isResult]
    rfl
  tried := by
    intro uncaptured tries flow isPlain failing
    rw [Made.plain, produced] at isPlain
    cases isPlain
    have failing : out.isOk = false := failing
    refine ⟨{ out with
      body := some (Body.fromJson world.codec (errorValue executor out)), status := some 200 },
      ?_, rfl, rfl⟩
    simp only [settleStep, produced, uncaptured, failing, tries]
    rfl

theorem uniform_value_iff {out : Value} (produced : made.produced = .value out)
    (left : ∀ capture, step.capture = some capture → SameContent made.left msg) :
    Uniform executor world step msg made
        ((settleStep executor world step made).mapError Failure.error) ↔
      KindIrrelevant executor world step msg made := by
  rw [KindIrrelevant, produced]
  constructor
  · intro uniform uncaptured tries inner shaped detected applied
    by_contra failing
    have isPlain : made.plain world = .ok (.next shaped) := by
      rw [Made.plain, produced]
      dsimp only
      rw [detected]
      dsimp only
      rw [applied]
      rfl
    obtain ⟨recovered, settled, succeeded, -⟩ :=
      uniform.tried uncaptured tries _ isPlain (Bool.eq_false_iff.mpr failing)
    simp only [settleStep, produced, uncaptured, detected, applied] at settled
    cases settled
    exact failing (isOk_of_status succeeded)
  · intro irrelevant
    refine ⟨fun capture isCapture value isResult => ?_, fun uncaptured tries flow isPlain failing => ?_⟩
    · rw [Made.result, produced] at isResult
      cases isResult
      refine ⟨made.left, made.vars.insert (captureName capture) out, ?_, left capture isCapture,
        OrderedMap.get?_insert_self _ _ _⟩
      simp only [settleStep, produced, isCapture]
      rfl
    · -- no failing message comes out of a value but a failing envelope
      exfalso
      rw [Made.plain, produced] at isPlain
      dsimp only at isPlain
      split at isPlain
      next inner detected =>
        obtain ⟨shaped, applied, rfl⟩ := map_eq_ok.mp isPlain
        have succeeded := irrelevant uncaptured tries inner shaped detected applied
        rw [Flow.message, succeeded] at failing
        cases failing
      next =>
        cases isPlain
        cases failing

theorem uniform_flow_iff {flow : Flow} (produced : made.produced = .flow flow) :
    Uniform executor world step msg made
        ((settleStep executor world step made).mapError Failure.error) ↔
      KindIrrelevant executor world step msg made := by
  have settled : (settleStep executor world step made).mapError Failure.error =
      .ok (flow.fromNested, made.vars) := by
    rw [settleStep, produced]
    rfl
  have isResult : made.result executor world = resultValue executor world flow.message := by
    rw [Made.result, produced]
  have isPlain : made.plain world = .ok flow.fromNested := by
    rw [Made.plain, produced]
  rw [KindIrrelevant, produced, settled]
  constructor
  · intro uniform
    cases isCapture : step.capture with
    | some capture =>
      refine .inr ⟨capture, rfl, fun value valued => ?_⟩
      obtain ⟨kept, after, same, content, bound⟩ :=
        uniform.captured capture isCapture value (isResult.trans valued)
      obtain ⟨handed, rfl⟩ := Prod.mk.inj (Except.ok.inj same)
      exact ⟨kept, handed, content, bound⟩
    | none =>
      refine .inl ⟨rfl, fun tries => ?_⟩
      by_contra failing
      have failing : flow.fromNested.message.isOk = false := by
        rw [Flow.message_fromNested]
        exact Bool.eq_false_iff.mpr failing
      obtain ⟨recovered, same, succeeded, -⟩ := uniform.tried isCapture tries _ isPlain failing
      obtain ⟨handed, -⟩ := Prod.mk.inj (Except.ok.inj same)
      rw [handed, Flow.message, isOk_of_status succeeded] at failing
      cases failing
  · intro irrelevant
    refine ⟨fun capture isCapture value valued => ?_, fun uncaptured tries other same failing => ?_⟩
    · rcases irrelevant with ⟨uncaptured, -⟩ | ⟨other, isOther, coincides⟩
      · rw [uncaptured] at isCapture
        cases isCapture
      · rw [isOther] at isCapture
        cases isCapture
        obtain ⟨kept, handed, content, bound⟩ := coincides value (isResult.symm.trans valued)
        exact ⟨kept, made.vars, by rw [handed], content, bound⟩
    · rw [isPlain] at same
      cases same
      rcases irrelevant with ⟨-, succeeds⟩ | ⟨capture, isCapture, -⟩
      · rw [Flow.message_fromNested, succeeds tries] at failing
        cases failing
      · rw [uncaptured] at isCapture
        cases isCapture

theorem uniform_iff (left : ∀ capture, step.capture = some capture → SameContent made.left msg) :
    Uniform executor world step msg made
        ((settleStep executor world step made).mapError Failure.error) ↔
      KindIrrelevant executor world step msg made := by
  cases produced : made.produced with
  | response out =>
    refine iff_of_true (uniform_response produced left) ?_
    rw [KindIrrelevant, produced]
    exact trivial
  | value out => exact uniform_value_iff produced left
  | flow flow => exact uniform_flow_iff produced

/-- Wherever a step runs, in every pipeline and at every depth, its modifiers do what they do for
a call exactly if the kind of its action is one that reads them, or had nothing to say to them. -/
theorem modifiers_apply_uniformly_iff (executor : Executor) (world : World) (fuel : Nat)
    (step : Step) (msg : Message) (vars : Object) (place : Place)
    (passes : stepConditionPasses step msg vars = .ok true) (made : Made)
    (acted : (make executor world (runPipeline executor world fuel) step msg vars place).outcome =
      .ok made) :
    Uniform executor world step msg made
        (runStep executor world (runPipeline executor world fuel) step msg vars place).outcome ↔
      KindIrrelevant executor world step msg made := by
  have settled : (runStep executor world (runPipeline executor world fuel) step msg vars
      place).outcome = (settleStep executor world step made).mapError Failure.error := by
    have condition : lift (stepConditionPasses step msg vars) = (pure true : Exec Bool) := by
      rw [passes]
      rfl
    rw [runStep, condition, pure_bind, if_pos rfl, runAction_eq_make, Traced.bind_of_ok acted]
    rfl
  rw [settled]
  exact uniform_iff fun capture captured => sameContent_left captured acted

/-! ## Modifiers of a nested pipeline -/

/-- A step alone, with the first place of a pipeline. -/
def makeAlone (step : Step) : Exec Made :=
  make (.plain .noRetry) .failing (runPipeline (.plain .noRetry) .failing 16) step localityRequest
    [] (Place.root.step 0)

def runAlone (step : Step) : Except Failure (Flow × Object) :=
  (runStep (.plain .noRetry) .failing (runPipeline (.plain .noRetry) .failing 16) step
    localityRequest [] (Place.root.step 0)).outcome

/-- A failing call with its result in a variable. -/
def capturedCall : Step :=
  { Step.callTo "GET" "/a" with capture := some "$x" }

/-- A failing nested pipeline with its result in a variable. -/
def capturedChild : Step :=
  { failingChild .next with capture := some "$x" }

/-- A stopping nested pipeline under `try`. -/
def triedChild : Step :=
  { failingChild .stop with tryMode := true }

/-- The result of an action is a response. -/
def Produced.isResponse : Produced → Bool
  | .response _ => true
  | _ => false

/-- The nested flow of an action succeeded, and whether it bound the variable. -/
def Made.nested (made : Made) : Option (Bool × Bool) :=
  match made.produced with
  | .flow flow => some (flow.message.isOk, (made.vars.get? ("x" : Str)).isSome)
  | _ => none

theorem Made.nested_eq_some {succeeds binds : Bool}
    (isNested : made.nested = some (succeeds, binds)) :
    ∃ flow, made.produced = .flow flow ∧ flow.message.isOk = succeeds ∧
      (made.vars.get? ("x" : Str)).isSome = binds := by
  unfold Made.nested at isNested
  split at isNested
  next flow produced =>
    cases isNested
    exact ⟨flow, produced, rfl, rfl⟩
  next => cases isNested

theorem exists_makeAlone {α : Type} {view : Made → α} {seen : α}
    (sees : (makeAlone step).outcome.toOption.map view = some seen) :
    ∃ made, (makeAlone step).outcome = .ok made ∧ view made = seen := by
  cases acted : (makeAlone step).outcome with
  | error failure =>
    rw [acted] at sees
    cases sees
  | ok made =>
    rw [acted] at sees
    exact ⟨made, rfl, Option.some.inj sees⟩

theorem makeAlone_capturedCall :
    (makeAlone capturedCall).outcome.toOption.map (fun made => made.produced.isResponse) =
      some true := by
  decide +kernel

theorem makeAlone_capturedChild :
    (makeAlone capturedChild).outcome.toOption.map Made.nested = some (some (false, false)) := by
  decide +kernel

theorem makeAlone_triedChild :
    (makeAlone triedChild).outcome.toOption.map Made.nested = some (some (false, false)) := by
  decide +kernel

theorem captured_call_binds :
    ∃ made, (makeAlone capturedCall).outcome = .ok made ∧
      Uniform (.plain .noRetry) .failing capturedCall localityRequest made
        (runAlone capturedCall) := by
  obtain ⟨made, acted, isResponse⟩ := exists_makeAlone makeAlone_capturedCall
  refine ⟨made, acted, ?_⟩
  refine (modifiers_apply_uniformly_iff (.plain .noRetry) .failing 16 capturedCall localityRequest
    [] (Place.root.step 0) rfl made acted).mpr ?_
  cases produced : made.produced with
  | response out =>
    rw [KindIrrelevant, produced]
    exact trivial
  | value out =>
    rw [produced] at isResponse
    cases isResponse
  | flow flow =>
    rw [produced] at isResponse
    cases isResponse

theorem runAlone_eq_settle (unconditional : step.condition = none)
    (acted : (makeAlone step).outcome = .ok made) :
    runAlone step =
      (settleStep (.plain .noRetry) .failing step made).mapError Failure.error := by
  have passes : stepConditionPasses step localityRequest [] = .ok true := by
    rw [stepConditionPasses, unconditional]
  unfold makeAlone at acted
  unfold runAlone
  rw [runStep, passes]
  exact congrArg Traced.outcome ((runAction_eq_make _ _ _ _ _ _ _).trans (Traced.bind_of_ok acted _))

/-- A nested pipeline step that validation accepts ignores `as`, and ignores `try`: the failing
result is not bound, and the abort is not recovered. -/
theorem nested_ignores_modifiers :
    ((PipelineSpec.serial none [capturedChild, triedChild]).validate (fun _ => none) = []) ∧
    (∃ made, (makeAlone capturedChild).outcome = .ok made ∧
      ¬ Uniform (.plain .noRetry) .failing capturedChild localityRequest made
        (runAlone capturedChild)) ∧
    (∃ made, (makeAlone triedChild).outcome = .ok made ∧
      ¬ Uniform (.plain .noRetry) .failing triedChild localityRequest made
        (runAlone triedChild)) := by
  refine ⟨by decide +kernel, ?_, ?_⟩
  · obtain ⟨made, acted, nested⟩ := exists_makeAlone makeAlone_capturedChild
    obtain ⟨flow, produced, failing, unbound⟩ := Made.nested_eq_some nested
    refine ⟨made, acted, fun uniform => ?_⟩
    rw [runAlone_eq_settle rfl acted, uniform_flow_iff produced, KindIrrelevant, produced] at uniform
    obtain ⟨impossible, -⟩ | ⟨capture, same, coincides⟩ := uniform
    · cases impossible
    cases same
    obtain ⟨kept, -, -, bound⟩ := coincides _ (by rw [resultValue, failing]; rfl)
    rw [show captureName ("$x" : Str) = ("x" : Str) by decide] at bound
    rw [bound] at unbound
    cases unbound
  · obtain ⟨made, acted, nested⟩ := exists_makeAlone makeAlone_triedChild
    obtain ⟨flow, produced, failing, -⟩ := Made.nested_eq_some nested
    refine ⟨made, acted, fun uniform => ?_⟩
    rw [runAlone_eq_settle rfl acted, uniform_flow_iff produced, KindIrrelevant, produced] at uniform
    obtain ⟨-, succeeds⟩ | ⟨capture, impossible, -⟩ := uniform
    · rw [succeeds rfl] at failing
      cases failing
    · cases impossible

end Rs2Runtime.Pipeline
