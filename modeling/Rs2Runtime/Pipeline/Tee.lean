import Rs2Runtime.Pipeline.AtMostOnce
import Rs2Runtime.Pipeline.Identity

/-!
Contract: what a tee leaves of its branch.

Owns:
- the requests that a run sends, and pipelines whose requests do not depend on some variables;
- the branch of a tee as a run of its own;
- when a tee passes its message and variables on, by what its branch ends with;
- when both kinds of tee send the same requests.

Does not own: what makes a condition, a placeholder or a template read a variable.
-/

namespace Rs2Runtime.Pipeline

open Text Data Data.Outcome Json

/-- The request of an event that is one. -/
def sentRequest : Event → Option Message
  | .send _ _ _ _ request => some request
  | _ => none

/-- The requests of a run, in order. -/
def requestsSent (events : List Event) : List Message :=
  events.filterMap sentRequest

/-! ## Variables that are not read -/

/-- Variables that differ under some names at most. -/
structure Agree (names : List Str) (vars vars' : Object) : Prop where
  ordered : OrderedMap.Ordered vars
  ordered' : OrderedMap.Ordered vars'
  same : ∀ name, name ∉ names → vars.get? name = vars'.get? name

/-- The steps of a pipeline, nested ones included, read none of the names: they read the same
whatever the names are bound to, and if they are not bound. -/
def ReadsNone (executor : Executor) (world : World) (names : List Str) (spec : PipelineSpec) :
    Prop :=
  ∀ step, Occurs step spec → ∀ vars vars', Agree names vars vars' →
    ReadsAlike executor world step vars vars'

variable {names : List Str} {vars vars' : Object} {spec : PipelineSpec}

theorem Agree.insert (agree : Agree names vars vars') (name : Str) (value : Value) :
    Agree names (vars.insert name value) (vars'.insert name value) where
  ordered := agree.ordered.insert name value
  ordered' := agree.ordered'.insert name value
  same := by
    intro other absent
    rw [OrderedMap.get?_insert, OrderedMap.get?_insert, agree.same other absent]

theorem Agree.extend {more more' : Object} (agree : Agree names vars vars')
    (added : Agree names more more') :
    Agree names (OrderedMap.extend vars more) (OrderedMap.extend vars' more') where
  ordered := agree.ordered.extend more
  ordered' := agree.ordered'.extend more'
  same := by
    intro name absent
    rw [added.ordered.get?_extend, added.ordered'.get?_extend, agree.same name absent,
      added.same name absent]

/-- Two runs whose variables differ under names that are not read send the same requests. -/
def unreadContract (executor : Executor) (world : World) (names : List Str) :
    Contract executor world where
  admits := fun step => ∀ vars vars', Agree names vars vars' →
    ReadsAlike executor world step vars vars'
  good := fun _ => True
  bound := fun _ vars vars' => Agree names vars vars'
  shows := fun event event' => sentRequest event = sentRequest event'
  reads := fun _ _ vars vars' unread agree => unread vars vars' agree
  admits_unconditional := fun _ unread vars vars' agree =>
    ⟨fun _ => rfl, (unread vars vars' agree).call, (unread vars vars' agree).transform⟩
  good_step := fun _ _ _ => trivial
  good_element := fun _ _ _ _ => trivial
  good_attempt := fun _ _ _ => trivial
  good_detach := fun _ _ => trivial
  bound_detached := ⟨OrderedMap.ordered_nil, OrderedMap.ordered_nil, fun _ _ => rfl⟩
  bound_capture := fun _ _ _ _ _ value agree _ _ => agree.insert _ value
  bound_merge := fun _ _ _ _ _ agree added => agree.extend added
  shows_call := fun _ _ _ _ _ _ _ => rfl
  shows_send := by
    intros
    rfl
  shows_retry := fun _ _ _ _ => rfl

/-- A pipeline sends the same requests whatever the variables are that it does not read. -/
theorem requestsSent_of_readsNone {executor : Executor} {world : World}
    (unread : ReadsNone executor world names spec) (agree : Agree names vars vars') (fuel : Nat)
    (msg : Message) (place : Place) (toStep : Option Nat) :
    requestsSent (runPipeline executor world fuel spec msg vars place toStep).events =
      requestsSent (runPipeline executor world fuel spec msg vars' place toStep).events := by
  have pairs := ((unreadContract executor world names).runPipeline_keeps fuel spec msg vars vars'
    place toStep ⟨unread, trivial, trivial⟩ agree trivial).1
  generalize (runPipeline executor world fuel spec msg vars place toStep).events = events at pairs ⊢
  generalize (runPipeline executor world fuel spec msg vars' place toStep).events = events' at pairs ⊢
  unfold requestsSent
  induction pairs with
  | nil => rfl
  | cons same _ ih => rw [List.filterMap_cons, List.filterMap_cons, same, ih]

/-! ## The branch as a run of its own -/

section Branch

variable (executor : Executor) (below : Runner)

/-- The run without the tee, apart from the reading of the body. -/
def passOn (msg : Message) (vars : Object) : Exec (Flow × Object) := do
  let input ← lift (materializeIfNeeded executor msg)
  return (.next input, vars)

/-- The branch of a tee, run from some variables. -/
def branchRun (spec : PipelineSpec) (msg : Message) (vars : Object) (place : Place) :
    Exec (Flow × Object) := do
  let input ← lift (materializeIfNeeded executor msg)
  let copy ← lift (teeCopy input)
  below { spec with mode := .serial } copy vars place none

/-- The branch of a kind of tee: one that is not waited for starts without variables. -/
def runTeeBranch (mode : Mode) (spec : PipelineSpec) (msg : Message) (vars : Object)
    (place : Place) : Exec (Flow × Object) :=
  branchRun executor below spec msg (if mode = .teeWait then vars else []) place

theorem bytes_of_materialize {body : Body} {maxBytes : Nat} {read : Octets × Body}
    (done : body.materialize maxBytes = .ok read) : ∃ octets, read.2.payload = .bytes octets := by
  unfold Body.materialize at done
  cases payload : body.payload with
  | bytes octets =>
    simp only [payload] at done
    split at done
    · cases done
    · cases done
      exact ⟨octets, payload⟩
  | stream chunks =>
    simp only [payload] at done
    have collected : ∀ {given : Except RsError Octets},
        given.map (fun octets => (octets, Body.fromBytes octets body.mediaType)) = .ok read →
          ∃ octets, read.2.payload = .bytes octets := by
      intro given mapped
      obtain ⟨octets, -, rfl⟩ := map_eq_ok.mp mapped
      exact ⟨octets, rfl⟩
    split at done
    · split at done
      · cases done
      · exact collected done
    · exact collected done

theorem tryClone_of_bytes {msg : Message} {body : Body} {octets : Octets}
    (held : msg.body = some body) (payload : body.payload = .bytes octets) :
    tryClone msg = some (cloneWithBody msg (some (Body.fromBytes octets body.mediaType))) := by
  unfold tryClone
  rw [held]
  dsimp only
  unfold cloneBody
  rw [payload]
  rfl

/-- A message that was read can be copied. -/
theorem exists_teeCopy {msg input : Message}
    (read : materializeIfNeeded executor msg = .ok input) : ∃ copy, teeCopy input = .ok copy := by
  have cloned : ∃ copy, tryClone input = some copy := by
    unfold materializeIfNeeded at read
    cases body : msg.body with
    | none =>
      simp only [body] at read
      cases read
      exact ⟨msg, by rw [tryClone, body]⟩
    | some held =>
      simp only [body] at read
      by_cases streams : held.isStream = true
      · rw [if_pos streams] at read
        obtain ⟨taken, done, rfl⟩ := map_eq_ok.mp read
        obtain ⟨octets, payload⟩ := bytes_of_materialize done
        exact ⟨_, tryClone_of_bytes rfl payload⟩
      · rw [if_neg streams] at read
        cases read
        unfold Body.isStream at streams
        cases payload : held.payload with
        | bytes octets => exact ⟨_, tryClone_of_bytes body payload⟩
        | stream chunks =>
          rw [payload] at streams
          exact absurd rfl streams
  obtain ⟨copy, cloned⟩ := cloned
  exact ⟨copy, by rw [teeCopy, cloned]⟩

/-- A tee passes on unless it waits for a branch that fails, or cannot read the body. -/
theorem outcome_runTee_iff (isTee : spec.mode = .tee ∨ spec.mode = .teeWait) (msg : Message)
    (vars : Object) (place : Place) :
    (runTee executor below spec msg vars place).outcome = (passOn executor msg vars).outcome ↔
      (∃ e, materializeIfNeeded executor msg = .error e) ∨ spec.mode = .tee ∨
        ∃ out, (branchRun executor below spec msg vars place).outcome = .ok out := by
  unfold runTee passOn branchRun
  cases read : materializeIfNeeded executor msg with
  | error e => exact iff_of_true rfl (.inl ⟨e, rfl⟩)
  | ok input =>
    obtain ⟨copy, copied⟩ := exists_teeCopy executor read
    rw [lift_ok_bind, lift_ok_bind, lift_ok_bind, copied, lift_ok_bind, lift_ok_bind]
    rcases isTee with unwaited | waits
    · have detached : ¬ spec.mode = .teeWait := by rw [unwaited]; nofun
      rw [if_neg detached]
      exact iff_of_true rfl (.inr (.inl unwaited))
    · rw [if_pos waits]
      cases ended : (below { spec with mode := .serial } copy vars place none).outcome with
      | error failure =>
        rw [Traced.bind_of_error ended]
        refine iff_of_false nofun ?_
        rintro (⟨e, refused⟩ | unwaited | ⟨out, done⟩)
        · cases refused
        · rw [waits] at unwaited
          cases unwaited
        · cases done
      | ok out =>
        rw [Traced.bind_of_ok ended]
        exact iff_of_true rfl (.inr (.inr ⟨out, rfl⟩))

end Branch

/-- A tee is a side effect: it passes on the message and the variables, and its branch sends what
the other kind of tee would send. -/
structure SideEffectOnly (executor : Executor) (world : World) (fuel : Nat) (spec : PipelineSpec)
    (msg : Message) (vars : Object) (place : Place) : Prop where
  frame : ∀ toStep, (runPipeline executor world (fuel + 1) spec msg vars place toStep).outcome =
    (passOn executor msg vars).outcome
  alike :
    requestsSent (runTeeBranch executor (runPipeline executor world fuel) .tee spec msg vars
        place).events =
      requestsSent (runTeeBranch executor (runPipeline executor world fuel) .teeWait spec msg vars
        place).events

theorem runPipeline_tee (isTee : spec.mode = .tee ∨ spec.mode = .teeWait) (executor : Executor)
    (world : World) (fuel : Nat) (msg : Message) (vars : Object) (place : Place)
    (toStep : Option Nat) :
    runPipeline executor world (fuel + 1) spec msg vars place toStep =
      runTee executor (runPipeline executor world fuel) spec msg vars place := by
  rcases isTee with isTee | isTee <;> rw [runPipeline, isTee]

/-- A call that is made where the URL is bound, or in any case. -/
def seenCall (condition : Option Str) : Step :=
  { Step.callTo "GET" "/seen" with condition := condition }

/-- A tee with the call as its branch. -/
def seenTee (mode : Mode) (condition : Option Str) : PipelineSpec :=
  { PipelineSpec.serial none [seenCall condition] with mode := mode }

end Rs2Runtime.Pipeline
