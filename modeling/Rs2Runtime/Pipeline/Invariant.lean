import Rs2Runtime.Pipeline.InFlight

/-!
Contract: the invariant rule of pipeline executions.

Owns:
- contracts: a relation of the events of two runs from different variables, with an invariant of
  places, one of the pipeline that runs at a place, one of the variables and one of the principal
  in flight, closed under everything an execution does;
- that two executions which read the same from their variables keep every contract;
- that one execution does, and that only a failing message aborts it.
-/

namespace Rs2Runtime.Pipeline

open Text Data Data.Outcome Json

/-- A step stands at an index of a pipeline, up to its condition. -/
def StandsIn (spec : PipelineSpec) (index : Nat) (step : Step) : Prop :=
  ∃ condition, spec.steps[index]? = some { step with condition := condition }

/-- An aborted flow carries a failing message. -/
def AbortFails (flow : Flow) : Prop :=
  ∀ msg, flow = .abort msg → msg.isOk = false

theorem abortFails_next (msg : Message) : AbortFails (.next msg) := by
  intro other same
  cases same

theorem abortFails_exit (msg : Message) : AbortFails (.exit msg) := by
  intro other same
  cases same

variable {flow : Flow}

theorem AbortFails.fromNested (fails : AbortFails flow) : AbortFails flow.fromNested := by
  cases flow with
  | next msg => exact abortFails_next msg
  | exit msg => exact abortFails_next msg
  | abort msg => exact fails

theorem AbortFails.fromChosen (fails : AbortFails flow) : AbortFails flow.fromChosen := by
  cases flow with
  | next msg => exact abortFails_exit msg
  | exit msg => exact abortFails_exit msg
  | abort msg => exact fails

theorem AbortFails.afterStep (fails : AbortFails flow) (spec : PipelineSpec) (step : Step) :
    AbortFails (afterStep spec step flow) := by
  unfold Pipeline.afterStep
  split
  · split
    next failing =>
      simp only [Bool.and_eq_true, Bool.not_eq_true'] at failing
      split
      · intro msg same
        cases same
        exact failing.1.1
      · exact abortFails_exit _
      · exact abortFails_next _
    next =>
      split
      · exact abortFails_exit _
      · exact abortFails_next _
  · exact fails

/-- A step reads the same from both variables. -/
structure ReadsAlike (executor : Executor) (world : World) (step : Step) (vars vars' : Object) :
    Prop where
  condition : ∀ msg, stepConditionPasses step msg vars = stepConditionPasses step msg vars'
  call : ∀ call msg, step.call = some call →
    PathPattern.resolve world.codec call.url executor.url
        (interpolationContext executor world msg vars) =
      PathPattern.resolve world.codec call.url executor.url
        (interpolationContext executor world msg vars') ∧
    resolveHeaders executor world call (interpolationContext executor world msg vars) =
      resolveHeaders executor world call (interpolationContext executor world msg vars')
  transform : ∀ template value msg, step.transform = some template →
    applyTemplate world.evaluate value (transformVars executor template msg vars) template =
      applyTemplate world.evaluate value (transformVars executor template msg vars') template

theorem ReadsAlike.refl (executor : Executor) (world : World) (step : Step) (vars : Object) :
    ReadsAlike executor world step vars vars :=
  ⟨fun _ => rfl, fun _ _ _ => ⟨rfl, rfl⟩, fun _ _ _ _ => rfl⟩

/-- What two executions of one pipeline keep.  Variables are judged by whether they belong to a
detached branch, events by where they happen. -/
structure Contract (executor : Executor) (world : World) where
  admits : Step → Prop
  good : Place → Prop
  located : PipelineSpec → Place → Prop := fun _ _ => True
  bound : (detached : Bool) → (vars vars' : Object) → Prop
  carried : Option Principal → Prop := fun _ => True
  shows : Event → Event → Prop
  reads : ∀ step detached vars vars', admits step → bound detached vars vars' →
    ReadsAlike executor world step vars vars'
  admits_unconditional : ∀ step, admits step → admits { step with condition := none }
  good_step : ∀ place index, good place → good (place.step index)
  good_element : ∀ place index name, good place → good (place.element index name)
  good_attempt : ∀ place number, good place → good (place.attempt number)
  good_detach : ∀ place, good place → good place.detach
  located_nested : ∀ spec place index step inner, located spec place → StandsIn spec index step →
    step.pipeline = some inner → located inner (place.step index) := by intros; trivial
  located_split : ∀ spec place index name, located spec place →
    located (afterSplit spec index) (place.element index name) := by intros; trivial
  located_attempt : ∀ spec place number, located spec place →
    located spec (place.attempt number) := by intros; trivial
  located_tee : ∀ spec place, located spec place →
    located { spec with mode := .serial } place ∧
      located { spec with mode := .serial } place.detach := by intros; trivial
  bound_detached : bound true [] []
  bound_capture : ∀ detached vars vars' step capture value, bound detached vars vars' →
    admits step → step.capture = some capture →
    bound detached (vars.insert (captureName capture) value)
      (vars'.insert (captureName capture) value)
  bound_merge : ∀ detached vars vars' branch branch', bound detached vars vars' →
    bound detached branch branch' →
    bound detached (OrderedMap.extend vars branch) (OrderedMap.extend vars' branch')
  shows_call : ∀ place index msg vars vars', good place → bound place.detached vars vars' →
    shows (.call (place.step index) msg (interpolationContext executor world msg vars))
      (.call (place.step index) msg (interpolationContext executor world msg vars'))
  carried_internal : ∀ place attempt step call msg request, admits step →
    step.call = some call → step.capture = none → carried msg.principal →
    request.principal = callPrincipal executor step msg →
    carried (world.internal place attempt request).principal := by intros; trivial
  carried_external : ∀ place attempt grant step call request response, admits step →
    step.call = some call → step.capture = none → executor.external.isSome →
    request.principal = none → world.external place attempt grant request = .ok response →
    carried response.principal := by intros; trivial
  shows_send : ∀ spec place index attempt step call headers msg request, located spec place →
    StandsIn spec index step → good place → admits step → step.call = some call →
    carried msg.principal → SentBy executor step msg request →
    ∀ event, event = .send (place.step index) attempt call.effectClass
      (attachedKey executor world call.effectClass headers (place.step index)) request →
    shows event event
  shows_retry : ∀ place sentUnsafe sentUnsafe', good place →
    shows (.retry place sentUnsafe) (.retry place sentUnsafe')

/-- The contract of every run with itself. -/
def emptyContract (executor : Executor) (world : World) : Contract executor world where
  admits := fun _ => True
  good := fun _ => True
  bound := fun _ vars vars' => vars = vars'
  shows := fun _ _ => True
  reads := by
    rintro step _ vars _ - rfl
    exact .refl executor world step vars
  admits_unconditional := fun _ _ => trivial
  good_step := fun _ _ _ => trivial
  good_element := fun _ _ _ _ => trivial
  good_attempt := fun _ _ _ => trivial
  good_detach := fun _ _ => trivial
  bound_detached := rfl
  bound_capture := by
    rintro _ _ _ _ _ _ rfl - -
    rfl
  bound_merge := by
    rintro _ _ _ _ _ rfl rfl
    rfl
  shows_call := by intros; trivial
  shows_send := by intros; trivial
  shows_retry := by intros; trivial

namespace Contract

variable {executor : Executor} {world : World} (contract : Contract executor world)
  {spec : PipelineSpec} {place : Place} {index : Nat} {step : Step} {msg : Message}
  {vars vars' : Object}

/-- A pipeline runs at a place under the contract: it has admitted steps only, nested ones
included. -/
structure Stands (spec : PipelineSpec) (place : Place) : Prop where
  admits : ∀ step, Occurs step spec → contract.admits step
  good : contract.good place
  located : contract.located spec place

/-- A step runs at an index under the contract, and so does the pipeline nested in it. -/
structure StandsAt (place : Place) (index : Nat) (step : Step) : Prop where
  admits : contract.admits step
  good : contract.good place
  located : ∃ spec, contract.located spec place ∧ StandsIn spec index step
  nested : ∀ inner, step.pipeline = some inner → contract.Stands inner (place.step index)

/-- Two executions hand on the same flow, which carries a failure if they were aborted, and their
variables. -/
def Hands (detached : Bool) (out out' : Flow × Object) : Prop :=
  out.1 = out'.1 ∧ contract.bound detached out.2 out'.2 ∧ AbortFails out.1

/-- What two executions hand on, with the message in flight. -/
def Fits (detached : Bool) (out out' : Flow × Object) : Prop :=
  contract.carried out.1.message.principal ∧ contract.Hands detached out out'

/-- Two executions at a place keep the contract. -/
def Keeps (place : Place) (run run' : Exec (Flow × Object)) : Prop :=
  Traced.Pairs contract.shows (contract.Fits place.detached) run run'

/-- Executions one level below keep the contract. -/
def KeptBelow (below : Runner) : Prop :=
  ∀ spec msg vars vars' place toStep, contract.Stands spec place →
    contract.bound place.detached vars vars' → contract.carried msg.principal →
    contract.Keeps place (below spec msg vars place toStep) (below spec msg vars' place toStep)

variable {contract}

theorem Stands.stepAt (stands : contract.Stands spec place)
    (found : spec.steps[index]? = some step) : contract.StandsAt place index step := by
  have member := List.mem_of_getElem? found
  refine ⟨stands.admits step (.here member), stands.good, ⟨spec, stands.located, _, found⟩,
    fun inner below => ⟨fun other occurs => stands.admits other (.nested member below occurs),
      contract.good_step place index stands.good, ?_⟩⟩
  exact contract.located_nested spec place index step inner stands.located ⟨_, found⟩ below

/-- The condition of a step is no part of where it stands. -/
theorem StandsAt.unconditional (stands : contract.StandsAt place index step) :
    contract.StandsAt place index { step with condition := none } :=
  ⟨contract.admits_unconditional step stands.admits, stands.good, stands.located, stands.nested⟩

theorem StandsAt.reads (stands : contract.StandsAt place index step)
    (bound : contract.bound place.detached vars vars') :
    ReadsAlike executor world step vars vars' :=
  contract.reads step _ vars vars' stands.admits bound

theorem Stands.split (stands : contract.Stands spec place) (index : Nat) (name : Str) :
    contract.Stands (afterSplit spec index) (place.element index name) where
  admits := fun step occurs =>
    stands.admits step (occurs.mono fun _ inRest => List.mem_of_mem_drop inRest)
  good := contract.good_element place index name stands.good
  located := contract.located_split spec place index name stands.located

theorem Stands.attempt (stands : contract.Stands spec place) (number : Nat) :
    contract.Stands spec (place.attempt number) :=
  ⟨stands.admits, contract.good_attempt place number stands.good,
    contract.located_attempt spec place number stands.located⟩

/-- The branch of a tee stands where the tee stands, waited for or not. -/
theorem Stands.tee (stands : contract.Stands spec place) :
    contract.Stands { spec with mode := .serial } place ∧
      contract.Stands { spec with mode := .serial } place.detach := by
  have admits : ∀ step, Occurs step { spec with mode := .serial } → contract.admits step :=
    fun step occurs => stands.admits step (occurs.mono fun _ member => by exact member)
  obtain ⟨waited, detached⟩ := contract.located_tee spec place stands.located
  exact ⟨⟨admits, stands.good, waited⟩,
    ⟨admits, contract.good_detach place stands.good, detached⟩⟩

theorem yields_lift {α : Type} {holds : Event → Prop} {result : α → Prop}
    {outcome : Except RsError α} (known : ∀ value, outcome = .ok value → result value) :
    Traced.Yields holds result (lift outcome) := by
  refine Traced.yields_ofExcept fun value ended => known value ?_
  cases outcome with
  | error e => cases ended
  | ok found =>
    cases ended
    rfl

theorem pairs_lift {α : Type} {shows : Event → Event → Prop} {related : α → α → Prop}
    {outcome outcome' : Except RsError α} (alike : Traced.Alike related outcome outcome') :
    Traced.Pairs shows related (lift outcome) (lift outcome') := by
  cases alike with
  | error e => exact Traced.pairs_fail _
  | ok known => exact Traced.pairs_pure known

/-- A fallible step that both runs have in common. -/
theorem pairs_bind_lift {α β : Type} {shows : Event → Event → Prop} {related : β → β → Prop}
    (outcome : Except RsError α) {next next' : α → Exec β}
    (after : ∀ value, outcome = .ok value → Traced.Pairs shows related (next value) (next' value)) :
    Traced.Pairs shows related (lift outcome >>= next) (lift outcome >>= next') :=
  Traced.pairs_bind_same (yields_lift fun _ ended => ended) after

/-! ## Leaves -/

variable {detached : Bool}

/-- A call aborts nothing, and changes the variables by its capture only. -/
theorem finishCall_hands (admitted : contract.admits step)
    (bound : contract.bound detached vars vars') (msg : Message) (isExternal : Bool)
    (result : Except RsError Message) :
    Traced.Alike (contract.Hands detached)
      (finishCall executor world step msg isExternal result vars)
      (finishCall executor world step msg isExternal result vars') := by
  refine Traced.alike_bind _ fun response => ?_
  dsimp only
  split
  next capture captured =>
    cases resultValue executor world _ with
    | error e => exact .error e
    | ok value =>
      exact .ok ⟨rfl, contract.bound_capture _ _ _ step capture value bound admitted captured,
        abortFails_next _⟩
  next => split <;> exact .ok ⟨rfl, bound, abortFails_next _⟩

/-- A transform aborts nothing, and changes the variables by its capture only. -/
theorem runTransform_hands (admitted : contract.admits step)
    (bound : contract.bound detached vars vars') {template : Value}
    (transforming : step.transform = some template) (msg : Message) :
    Traced.Alike (contract.Hands detached) (runTransform executor world step template msg vars)
      (runTransform executor world step template msg vars') := by
  refine Traced.alike_bind _ fun read => ?_
  rw [(contract.reads step _ _ _ admitted bound).transform template read.1 read.2 transforming]
  refine Traced.alike_bind _ fun out => ?_
  split
  next capture captured =>
    exact .ok ⟨rfl, contract.bound_capture _ _ _ step capture out bound admitted captured,
      abortFails_next _⟩
  next =>
    split
    · refine Traced.alike_bind _ fun shaped => ?_
      exact .ok ⟨rfl, bound, abortFails_next _⟩
    · exact .ok ⟨rfl, bound, abortFails_next _⟩

theorem sendCall_yields {call : CallSpec} (stands : contract.StandsAt place index step)
    (calling : step.call = some call) {url : Str} {isExternal : Bool}
    (classified : Outbound.isExternalUrl url = some isExternal)
    (method : Method) (headers : HeaderMap) {body : CallBody}
    (carried : contract.carried body.left.principal) :
    Traced.Yields (fun event => contract.shows event event)
      (fun result => ∀ response, result = .ok response → step.capture = none →
        contract.carried response.principal)
      (sendCall executor world step call (place.step index) url isExternal method headers
        body) := by
  unfold sendCall
  split
  · refine Traced.yields_pure fun response answered => ?_
    cases answered
  next target chosen =>
    obtain ⟨spec, located, standsIn⟩ := stands.located
    refine yields_retryLoop _ (fun attempt => ?_) _ _
    obtain ⟨source, principal, parsed⟩ := CallPlan.request_frame
      { method := method
        url := url
        effect := call.effectClass
        target := target
        headers := headers
        principal := callPrincipal executor step body.left
        autoKey := attachedKey executor world call.effectClass headers (place.step index)
        body := body } attempt
    refine Traced.yields_bind (Traced.yields_emit ?_) fun _ _ => ?_
    · refine contract.shows_send spec place index attempt step call headers body.left _ located
        standsIn stands.good stands.admits calling carried ⟨source, ?_⟩ _ rfl
      by_cases inside : target = .internal
      · rw [if_pos inside] at principal
        exact .inl principal
      · rw [if_neg inside] at principal
        have leaves := (chooseTarget_external chosen inside).1
        exact .inr ⟨⟨url, leaves ▸ classified, parsed⟩, principal⟩
    · cases target with
      | internal =>
        refine Traced.yields_pure fun response answered uncaptured => ?_
        cases answered
        exact contract.carried_internal _ attempt step call body.left _ stands.admits
          calling uncaptured carried principal
      | external grant =>
        refine Traced.yields_pure fun response answered uncaptured => ?_
        exact contract.carried_external _ attempt grant step call _ response stands.admits
          calling uncaptured (chooseTarget_external chosen nofun).2 principal answered

theorem runCall_keeps {call : CallSpec} (stands : contract.StandsAt place index step)
    (bound : contract.bound place.detached vars vars') (calling : step.call = some call)
    (carried : contract.carried msg.principal) :
    contract.Keeps place (runCall executor world step call msg vars (place.step index))
      (runCall executor world step call msg vars' (place.step index)) := by
  obtain ⟨sameUrl, sameHeaders⟩ := (stands.reads bound).call call msg calling
  unfold runCall
  simp only [sameUrl, sameHeaders]
  refine pairs_bind_lift _ fun method _ => ?_
  refine Traced.pairs_bind (Traced.pairs_emit
    (contract.shows_call place index msg vars vars' stands.good bound)) fun _ _ _ => ?_
  refine pairs_bind_lift _ fun url _ => ?_
  refine pairs_bind_lift _ fun body taken => ?_
  have left : contract.carried body.left.principal := (callBody_principal taken) ▸ carried
  have classified : Traced.Yields (fun event => contract.shows event event)
      (fun isExternal => Outbound.isExternalUrl url = some isExternal) (classify url) := by
    unfold classify
    split
    next found => exact Traced.yields_pure found
    next => exact Traced.yields_fail _
  refine Traced.pairs_bind_same classified fun isExternal external => ?_
  refine pairs_bind_lift _ fun headers _ => ?_
  refine Traced.pairs_bind_same
    (sendCall_yields stands calling external method headers left) fun result answered => ?_
  refine pairs_lift ((finishCall_hands stands.admits bound _ _ _).and fun out finished => ?_)
  rcases finishCall_message finished with same | ⟨uncaptured, response, ok, same⟩
  · exact same ▸ left
  · exact same ▸ answered response ok uncaptured

/-! ## Attempts and branches -/

theorem getElem?_of_mem_segmentSteps {segment : Segment} {step : Step × Nat}
    (member : step ∈ segmentSteps spec segment) : spec.steps[step.2]? = some step.1 :=
  List.mem_zipIdx_iff_getElem?.mp (List.mem_of_mem_take (List.mem_of_mem_drop member))

theorem attemptVars_fits (single : Bool) (before : contract.bound detached vars vars')
    {out out' : Flow × Object} (after : contract.Fits detached out out') :
    contract.Fits detached (out.1, attemptVars single vars out)
      (out'.1, attemptVars single vars' out') := by
  obtain ⟨owned, flow, after, fails⟩ := after
  refine ⟨owned, flow, ?_, fails⟩
  unfold attemptVars
  rw [← flow]
  split
  · split
    · exact after
    · exact before
  · exact after

theorem completed_alike {α : Type} {related : α → α → Prop} {outcomes outcomes' : List α}
    (each : List.Forall₂ related outcomes outcomes') (place : Place) :
    List.Forall₂ related (world.completed place outcomes) (world.completed place outcomes') := by
  unfold World.completed
  rw [each.length_eq]
  induction world.completion place outcomes'.length with
  | nil => exact .nil
  | cons index indices ih =>
    rw [List.filterMap_cons, List.filterMap_cons]
    by_cases inside : index < outcomes.length
    · have inside' : index < outcomes'.length := each.length_eq ▸ inside
      rw [List.getElem?_eq_getElem inside, List.getElem?_eq_getElem inside']
      exact .cons (each.get inside inside') ih
    · have outside' : ¬ index < outcomes'.length := each.length_eq ▸ inside
      rw [List.getElem?_eq_none (Nat.le_of_not_lt inside),
        List.getElem?_eq_none (Nat.le_of_not_lt outside')]
      exact ih

variable (contract) in
/-- Two branches are of one step and hand on what fits. -/
def FitsBranch (detached : Bool) (branch branch' : Branch) : Prop :=
  branch' = { branch with vars := branch'.vars } ∧
    contract.Fits detached (branch.flow, branch.vars) (branch.flow, branch'.vars)

theorem gatherBranches_fits {branches branches' : List (Except Failure Branch)}
    (each : List.Forall₂ (Traced.Alike (contract.FitsBranch detached)) branches branches')
    (bound : contract.bound detached vars vars') (results : OrderedMap Nat (Str × Message)) :
    Traced.Alike (fun gathered gathered' =>
        gathered' = { gathered with vars := gathered'.vars } ∧
          contract.bound detached gathered.vars gathered'.vars ∧
          ∀ out, gathered.aborted = some out → contract.carried out.principal ∧ out.isOk = false)
      (gatherBranches spec branches vars results)
      (gatherBranches spec branches' vars' results) := by
  induction each generalizing vars vars' results with
  | nil => exact .ok ⟨rfl, bound, nofun⟩
  | cons ends _ ih =>
    cases ends with
    | error failure => exact .error failure
    | @ok branch branch' known =>
      obtain ⟨same, owned, -, own, fails⟩ := known
      rw [same]
      unfold gatherBranches
      dsimp only at owned fails ⊢
      split
      next out flow =>
        rw [flow] at owned
        refine .ok ⟨rfl, bound, fun failed aborted => ?_⟩
        cases aborted
        exact ⟨owned, fails _ flow⟩
      all_goals
        next out flow =>
          rw [flow] at owned
          split
          next failing =>
            simp only [Bool.and_eq_true, Bool.not_eq_true'] at failing
            refine .ok ⟨rfl, bound, fun failed aborted => ?_⟩
            cases aborted
            exact ⟨owned, failing.1.1⟩
          next => exact ih (contract.bound_merge detached _ _ _ _ bound own) _

/-! ## Steps and splits -/

section Below

variable {below : Runner} (kept : contract.KeptBelow below)
include kept

theorem runAction_keeps (stands : contract.StandsAt place index step)
    (bound : contract.bound place.detached vars vars') (carried : contract.carried msg.principal) :
    contract.Keeps place (runAction executor world below step msg vars (place.step index))
      (runAction executor world below step msg vars' (place.step index)) := by
  unfold runAction
  split
  next call calling => exact runCall_keeps stands bound calling carried
  next =>
    split
    next template transforming =>
      exact pairs_lift ((runTransform_hands stands.admits bound transforming msg).and
        fun out finished => (runTransform_principal finished) ▸ carried)
    next =>
      split
      next inner nested =>
        refine Traced.pairs_bind (kept inner msg vars vars' (place.step index) none
          (stands.nested inner nested) bound carried) fun out out' after => ?_
        obtain ⟨owned, flow, after, fails⟩ := after
        refine Traced.pairs_pure ⟨?_, congrArg Flow.fromNested flow, after, fails.fromNested⟩
        rw [Flow.message_fromNested]
        exact owned
      next => exact Traced.pairs_fail _

theorem runStep_keeps (stands : contract.StandsAt place index step)
    (bound : contract.bound place.detached vars vars') (carried : contract.carried msg.principal) :
    contract.Keeps place (runStep executor world below step msg vars (place.step index))
      (runStep executor world below step msg vars' (place.step index)) := by
  unfold runStep
  rw [(stands.reads bound).condition]
  refine pairs_bind_lift _ fun passes _ => ?_
  split
  · exact runAction_keeps kept stands bound carried
  · exact Traced.pairs_pure ⟨carried, rfl, bound, abortFails_next msg⟩

variable (stands : contract.Stands spec place) (bound : contract.bound place.detached vars vars')
  (carried : contract.carried msg.principal)

include stands bound carried

theorem runSplit_keeps (index : Nat) :
    contract.Keeps place (runSplit executor world below spec index msg vars place)
      (runSplit executor world below spec index msg vars' place) := by
  rw [runSplit, splitResults, runSplit, splitResults]
  simp only [bind_assoc, pure_bind]
  refine pairs_bind_lift _ fun json _ => ?_
  refine pairs_bind_lift _ fun _ _ => ?_
  have each : ∀ element, Traced.Pairs contract.shows Eq
      (runElement world below (afterSplit spec index) index msg vars place element)
      (runElement world below (afterSplit spec index) index msg vars' place element) := by
    intro element
    unfold runElement
    dsimp only
    split
    · exact Traced.pairs_pure rfl
    · refine Traced.pairs_bind (kept _ _ vars vars' _ none (stands.split index element.1) bound
        carried) fun out out' after => ?_
      exact Traced.pairs_pure (by rw [after.2.1])
  refine Traced.pairs_bind (Traced.pairs_gather fun element _ => each element)
    fun outcomes outcomes' ends => ?_
  have same : outcomes = outcomes' :=
    List.forall₂_eq_eq_eq ▸ ends.imp fun _ _ ends => Traced.eq_of_alike ends
  rw [same]
  refine Traced.pairs_bind_same (Traced.yields_ofExcept fun _ _ => trivial)
    fun named (_ : True) => ?_
  refine pairs_bind_lift _ fun joined done => ?_
  exact Traced.pairs_pure
    ⟨(join_principal done) ▸ carried, rfl, bound, abortFails_exit joined⟩

theorem runSteps_keeps (toStep : Option Nat) {steps : List (Step × Nat)}
    (inside : ∀ step ∈ steps, spec.steps[step.2]? = some step.1) :
    contract.Keeps place (runSteps executor world below spec toStep place steps msg vars)
      (runSteps executor world below spec toStep place steps msg vars') := by
  induction steps generalizing msg vars vars' with
  | nil => exact Traced.pairs_pure ⟨carried, rfl, bound, abortFails_next msg⟩
  | cons indexed steps ih =>
    obtain ⟨step, index⟩ := indexed
    have rest : ∀ step ∈ steps, spec.steps[step.2]? = some step.1 :=
      fun other member => inside other (List.mem_cons_of_mem _ member)
    have standsAt := stands.stepAt (inside (step, index) List.mem_cons_self)
    unfold runSteps
    split
    · exact Traced.pairs_pure ⟨carried, rfl, bound, abortFails_exit msg⟩
    · split
      · rw [(standsAt.reads bound).condition]
        refine pairs_bind_lift _ fun passes _ => ?_
        split
        · exact runSplit_keeps kept stands bound carried index
        · exact ih bound carried rest
      · refine Traced.pairs_bind (runStep_keeps kept standsAt bound carried)
          fun out out' after => ?_
        obtain ⟨owned, flow, after, fails⟩ := after
        rw [← flow]
        rw [← message_afterStep spec step out.1] at owned
        split
        next onward following =>
          rw [following] at owned
          exact ih after owned rest
        next => exact Traced.pairs_pure ⟨owned, rfl, after, fails.afterStep spec step⟩

/-! ## Segments -/

theorem runAttempts_keeps (toStep : Option Nat) (segment : Segment)
    (snapshot : Option (Option Body)) (single : Bool) (remaining attempt : Nat) :
    contract.Keeps place
      (runAttempts executor world below spec toStep segment snapshot place single remaining
        attempt msg vars)
      (runAttempts executor world below spec toStep segment snapshot place single remaining
        attempt msg vars') := by
  have ran : ∀ attempt, contract.Keeps place
      (runSegment executor world below spec toStep segment snapshot place attempt msg vars)
      (runSegment executor world below spec toStep segment snapshot place attempt msg vars') :=
    fun attempt => runSteps_keeps kept (stands.attempt attempt) bound
      ((attemptMessage_principal snapshot msg) ▸ carried) toStep
      fun _ member => getElem?_of_mem_segmentSteps member
  induction remaining generalizing attempt with
  | zero =>
    refine Traced.pairs_bind (ran attempt) fun out out' after => ?_
    exact Traced.pairs_pure (attemptVars_fits single bound after)
  | succ remaining ih =>
    refine Traced.pairs_bind (ran attempt) fun out out' after => ?_
    have fits := attemptVars_fits single bound after
    rw [← after.2.1] at fits ⊢
    split
    · split
      · exact Traced.pairs_bind (Traced.pairs_emit (contract.shows_retry place _ _ stands.good))
          fun _ _ _ => ih (attempt + 1)
      · exact Traced.pairs_pure fits
    · exact Traced.pairs_pure fits

theorem runSegments_keeps (toStep : Option Nat) (segments : List Segment) :
    contract.Keeps place (runSegments executor world below spec toStep place segments msg vars)
      (runSegments executor world below spec toStep place segments msg vars') := by
  induction segments generalizing msg vars vars' with
  | nil => exact Traced.pairs_pure ⟨carried, rfl, bound, abortFails_next msg⟩
  | cons segment segments ih =>
    refine pairs_bind_lift _ fun snapshot done => ?_
    refine Traced.pairs_bind (runAttempts_keeps kept stands bound
      ((snapshotBody_principal done) ▸ carried) toStep segment snapshot.1 _ _ 1)
      fun out out' after => ?_
    obtain ⟨owned, flow, after, fails⟩ := after
    rw [← flow]
    split
    next following =>
      rw [following] at owned
      split
      · exact Traced.pairs_pure ⟨owned, rfl, after, abortFails_exit _⟩
      · exact ih after owned
    next => exact Traced.pairs_pure ⟨owned, rfl, after, fails⟩

/-! ## The other modes -/

theorem runParallel_keeps :
    contract.Keeps place (runParallel executor world below spec msg vars place)
      (runParallel executor world below spec msg vars' place) := by
  refine pairs_bind_lift _ fun input read => ?_
  have owned : contract.carried input.principal := (materializeIfNeeded_principal read) ▸ carried
  refine pairs_bind_lift _ fun _ _ => ?_
  have each : ∀ indexed ∈ spec.steps.zipIdx,
      Traced.Pairs contract.shows (contract.FitsBranch place.detached)
        (runBranch executor world below input vars place indexed)
        (runBranch executor world below input vars' place indexed) := by
    intro indexed member
    have standsAt := stands.stepAt (List.mem_zipIdx_iff_getElem?.mp member)
    unfold runBranch
    split
    · exact Traced.pairs_fail _
    next copy cloned =>
      refine Traced.pairs_bind (runStep_keeps kept standsAt bound
        ((tryClone_principal cloned) ▸ owned)) fun out out' after => ?_
      obtain ⟨carried, flow, after⟩ := after
      exact Traced.pairs_pure ⟨by rw [flow], carried, rfl, after⟩
  refine Traced.pairs_bind (Traced.pairs_gather each) fun outcomes outcomes' ends => ?_
  refine Traced.pairs_bind (Traced.pairs_ofExcept
    (gatherBranches_fits (completed_alike ends place) bound [])) fun gathered gathered' after => ?_
  obtain ⟨same, after, failing⟩ := after
  rw [same]
  unfold finishParallel
  dsimp only
  split
  next failed aborted =>
    obtain ⟨carried, failing⟩ := failing failed aborted
    refine pairs_lift (.ok ⟨carried, rfl, after, fun other same => ?_⟩)
    cases same
    exact failing
  next =>
    cases done : join executor world (gathered.results.map Prod.snd) (cloneWithBody input none) with
    | error e => exact pairs_lift (.error e)
    | ok joined =>
      exact pairs_lift (.ok ⟨(join_principal done) ▸ owned, rfl, after, abortFails_next joined⟩)

theorem runConditional_keeps {steps : List (Step × Nat)}
    (inside : ∀ step ∈ steps, spec.steps[step.2]? = some step.1) :
    contract.Keeps place (runConditional executor world below msg vars place steps)
      (runConditional executor world below msg vars' place steps) := by
  induction steps with
  | nil => exact Traced.pairs_pure ⟨carried, rfl, bound, abortFails_next msg⟩
  | cons indexed steps ih =>
    obtain ⟨step, index⟩ := indexed
    have standsAt := stands.stepAt (inside (step, index) List.mem_cons_self)
    unfold runConditional
    rw [(standsAt.reads bound).condition]
    refine pairs_bind_lift _ fun passes _ => ?_
    split
    · refine Traced.pairs_bind (runStep_keeps kept standsAt.unconditional bound carried)
        fun out out' after => ?_
      obtain ⟨owned, flow, after, fails⟩ := after
      refine Traced.pairs_pure ⟨?_, congrArg Flow.fromChosen flow, after, fails.fromChosen⟩
      rw [Flow.message_fromChosen]
      exact owned
    · exact ih fun other member => inside other (List.mem_cons_of_mem _ member)

theorem runTee_keeps :
    contract.Keeps place (runTee executor below spec msg vars place)
      (runTee executor below spec msg vars' place) := by
  obtain ⟨waited, unwaited⟩ := stands.tee
  refine pairs_bind_lift _ fun input read => ?_
  have owned : contract.carried input.principal := (materializeIfNeeded_principal read) ▸ carried
  refine pairs_bind_lift _ fun copy cloned => ?_
  have copied : contract.carried copy.principal := (teeCopy_principal cloned) ▸ owned
  have after : contract.Keeps place (pure (.next input, vars)) (pure (.next input, vars')) :=
    Traced.pairs_pure ⟨owned, rfl, bound, abortFails_next input⟩
  dsimp only
  split
  · exact Traced.pairs_bind (kept _ copy vars vars' place none waited bound copied)
      fun _ _ _ => after
  · exact Traced.pairs_bind (Traced.pairs_detach (kept _ copy [] [] place.detach none unwaited
      contract.bound_detached copied)) fun _ _ _ => after

end Below

/-! ## Whole executions -/

/-- Executions of every depth keep the contract. -/
theorem runPipeline_keeps (contract : Contract executor world) (fuel : Nat) :
    contract.KeptBelow (runPipeline executor world fuel) := by
  induction fuel with
  | zero => exact fun _ _ _ _ _ _ _ _ _ => Traced.pairs_fail _
  | succ fuel kept =>
    intro spec msg vars vars' place toStep stands bound carried
    unfold runPipeline
    split
    · exact runSegments_keeps kept stands bound carried toStep _
    · exact runParallel_keeps kept stands bound carried
    · exact runConditional_keeps kept stands bound carried
        fun _ member => List.mem_zipIdx_iff_getElem?.mp member
    · exact runTee_keeps kept stands bound carried
    · exact runTee_keeps kept stands bound carried

/-- Every event of an invocation satisfies every contract that its start satisfies. -/
theorem run_shows (contract : Contract executor world) (stands : contract.Stands spec Place.root)
    (bound : contract.bound false (startVars executor msg) (startVars executor msg))
    (carried : contract.carried msg.principal) (toStep : Option Nat) {event : Event}
    (member : event ∈ (run executor world spec msg toStep).events) :
    contract.shows event event := by
  have pairs : Traced.Pairs contract.shows (fun _ _ => True) (run executor world spec msg toStep)
      (run executor world spec msg toStep) := by
    refine pairs_bind_lift _ fun _ _ => ?_
    exact Traced.pairs_bind (runPipeline_keeps contract _ spec msg _ _ Place.root toStep
      stands bound carried) fun _ _ _ => Traced.pairs_pure trivial
  exact List.forall₂_same.mp pairs.1 event member

end Contract

end Rs2Runtime.Pipeline
