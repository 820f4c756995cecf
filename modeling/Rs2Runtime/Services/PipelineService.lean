import Rs2Runtime.Data.Outcome
import Rs2Runtime.Pipeline.Spec
import Rs2Runtime.Wrapper.Access

/-!
Contract: how the pipeline service authorizes and runs a request.

Owns:
- the access of a stored pipeline, laid over that of its mount;
- the order of resolution, reading, authorization and execution;
- which requests are admitted to execution, and which are refused by their access.
-/

namespace Rs2Runtime.Services.PipelineService

open Text Data Json Wrapper Pipeline

/-- The reserved subtree in which pipelines are authored. -/
def pipelineSubtree : Str := ".pipelines"

/-- The access of a stored pipeline over that of its mount: roles are overridden key by key,
anything else as a whole. -/
def effectiveAccess (mount spec : Option Value) : Option Value :=
  match mount, spec with
  | none, none => none
  | some mount, none => some mount
  | none, some spec => some spec
  | some (.obj mount), some (.obj spec) => some (.obj (OrderedMap.extend mount spec))
  | some _, some spec => some spec

/-- Hold a request to the access of the pipeline it runs.  Without a policy only the runtime's
own calls are let through. -/
def checkEffectiveAccess (config doc : Value) (msg : Message) : Except RsError Unit :=
  match effectiveAccess (config.get? "access") (doc.get? "access") with
  | some access => checkRoleSpec access (actionFor msg.method) msg
  | none =>
    if msg.source = .system then
      .ok ()
    else if msg.principal.isSome then
      .error (.forbidden "this pipeline has no access policy configured")
    else
      .error (.unauthorized "this pipeline has no access policy configured")

/-- The stored pipelines of a mount: resolution of a path to a document, and reading of a typed
pipeline with the reason why it cannot be read. -/
structure StoredPipelines where
  resolve : List Str → Option (Value × Nat)
  read : Value → Except Str PipelineSpec

def specFromDoc (pipelines : StoredPipelines) (doc : Value) : Except RsError PipelineSpec :=
  match pipelines.read ((doc.get? "pipeline").getD .null) with
  | .ok spec => .ok spec
  | .error reason => .error (.internal (("stored pipeline is corrupt: " : Str) ++ reason))

/-- What the service does with the requests it lets through. -/
structure Handlers where
  author : Message → Except RsError Message
  run : PipelineSpec → (matchedLen : Nat) → Message → Except RsError Message

def isAuthoring (msg : Message) : Bool :=
  msg.url.serviceSegments.head? = some pipelineSubtree

def noPipeline (msg : Message) : RsError :=
  .notFound (("no stored pipeline matches '" : Str) ++ msg.url.servicePath ++
    ("' (author one at " : Str) ++ msg.url.basePath ++ pipelineSubtree ++ ("/…)" : Str))

def handle (pipelines : StoredPipelines) (handlers : Handlers) (config : Value) (msg : Message) :
    Except RsError Message :=
  if isAuthoring msg then
    handlers.author msg
  else
    match pipelines.resolve msg.url.serviceSegments with
    | none => .error (noPipeline msg)
    | some (doc, matchedLen) => do
        let spec ← specFromDoc pipelines doc
        let _ ← checkEffectiveAccess config doc msg
        handlers.run spec matchedLen msg

/-- A stored pipeline governs the request and can be read. -/
def Governed (pipelines : StoredPipelines) (msg : Message) (doc : Value) : Prop :=
  isAuthoring msg = false ∧
    ∃ matchedLen spec, pipelines.resolve msg.url.serviceSegments = some (doc, matchedLen) ∧
      specFromDoc pipelines doc = .ok spec

/-- The request gets to be handled: it is an authoring request, or its pipeline's access lets it
through. -/
def Admitted (pipelines : StoredPipelines) (config : Value) (msg : Message) : Prop :=
  isAuthoring msg = true ∨
    ∃ doc, Governed pipelines msg doc ∧ checkEffectiveAccess config doc msg = .ok ()

/-- The access of every pipeline that governs the request lets it through. -/
def Unrefused (pipelines : StoredPipelines) (config : Value) (msg : Message) : Prop :=
  ∀ doc, Governed pipelines msg doc → checkEffectiveAccess config doc msg = .ok ()

/-- Only what is admitted is answered with success. -/
theorem admitted_of_handle {pipelines : StoredPipelines} {handlers : Handlers} {config : Value}
    {msg resp : Message} (handled : handle pipelines handlers config msg = .ok resp) :
    Admitted pipelines config msg := by
  unfold handle at handled
  split at handled
  next authoring => exact .inl authoring
  next execution =>
    have notAuthoring : isAuthoring msg = false := by simpa using execution
    split at handled
    · cases handled
    next doc matchedLen resolved =>
      obtain ⟨spec, read, rest⟩ := Outcome.bind_eq_ok.mp handled
      obtain ⟨_, passed, -⟩ := Outcome.bind_eq_ok.mp rest
      exact .inr ⟨doc, ⟨notAuthoring, matchedLen, spec, resolved, read⟩, passed⟩

/-- Handlers that answer every request as given. -/
def Handlers.answering (answer : Message → Message) : Handlers where
  author := fun msg => .ok (answer msg)
  run := fun _ _ msg => .ok (answer msg)

/-- What is admitted is answered as the handlers answer. -/
theorem handle_of_admitted {pipelines : StoredPipelines} {config : Value} {msg : Message}
    (admitted : Admitted pipelines config msg) (answer : Message → Message) :
    handle pipelines (.answering answer) config msg = .ok (answer msg) := by
  rcases admitted with authoring | ⟨doc, ⟨execution, matchedLen, spec, resolved, read⟩, passed⟩
  · rw [handle, if_pos authoring]
    rfl
  · rw [handle, if_neg (by simp [execution]), resolved]
    exact Outcome.bind_eq_ok.mpr ⟨spec, read, Outcome.bind_eq_ok.mpr ⟨(), passed, rfl⟩⟩

end Rs2Runtime.Services.PipelineService
