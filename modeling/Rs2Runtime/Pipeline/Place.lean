import Rs2Runtime.Outbound.Dispatch
import Rs2Runtime.Pipeline.Spec
import Rs2Runtime.Pipeline.Transform

/-!
Contract: where a pipeline execution stands, and what it leaves in its trace.

Owns:
- positions: the index path through nested pipelines with the split elements on the way;
- places: a position with the executor's key path and the attempts around it;
- the events of an execution and the ways it fails;
- the executor's configuration and the behaviour of its surroundings.
-/

namespace Rs2Runtime.Pipeline

open Text Data Json

/-! ## Places -/

/-- One turn on the way to a step: into the step at an index, or into an element of a
split. -/
inductive Crumb where
  | step (index : Nat)
  | element (splitIndex : Nat) (name : Str)
  deriving DecidableEq, Repr

/-- The way to a step, outermost turn first. -/
abbrev Position := List Crumb

/-- Where an execution stands.  The executor itself only knows `keyPath`; the position, the
numbers of the segment attempts around it and whether it runs in a detached branch are
kept to speak about runs. -/
structure Place where
  keyPath : Str
  position : Position
  attempts : List Nat
  detached : Bool
  deriving DecidableEq, Repr

namespace Place

/-- The place of a pipeline invocation. -/
def root : Place := ⟨[], [], [], false⟩

/-- Into the step at an index. -/
def step (place : Place) (index : Nat) : Place :=
  { place with
    keyPath := place.keyPath ++ '/' :: natStr index
    position := place.position ++ [.step index] }

/-- Into an element of the split at an index. -/
def element (place : Place) (splitIndex : Nat) (name : Str) : Place :=
  { place with
    keyPath := place.keyPath ++ ("/split[" : Str) ++ name ++ ("]" : Str)
    position := place.position ++ [.element splitIndex name] }

/-- Into an attempt of a segment. -/
def attempt (place : Place) (number : Nat) : Place :=
  { place with attempts := place.attempts ++ [number] }

/-- Into a branch nobody waits for. -/
def detach (place : Place) : Place :=
  { place with detached := true }

end Place

/-! ## Events and failures -/

/-- What an execution leaves in its trace. -/
inductive Event where
  /-- A call step resolves its placeholders over this context. -/
  | call (place : Place) (msg : Message) (context : Object)
  /-- A request is sent; `autoKey` is the key the executor attached. -/
  | send (place : Place) (attempt : Nat) (effect : EffectClass) (autoKey : Option Str)
      (request : Message)
  /-- A segment is retried; `sentUnsafe` tells whether the failed attempt sent a request of
  an unsafe class. -/
  | retry (place : Place) (sentUnsafe : Bool)
  deriving DecidableEq

/-- How an execution ends without a message. -/
inductive Failure where
  | error (error : RsError)
  | panicked
  deriving DecidableEq, Repr

/-- An execution with its trace. -/
abbrev Exec (α : Type) := Traced Failure Event α

/-- A fallible step without events. -/
def lift {α : Type} (outcome : Except RsError α) : Exec α :=
  Traced.ofExcept (outcome.mapError Failure.error)

theorem lift_ok_bind {α β : Type} (value : α) (next : α → Exec β) :
    lift (.ok value) >>= next = next value := rfl

/-- What a step did with the message in flight. -/
inductive Flow where
  | next (msg : Message)
  | exit (msg : Message)
  | abort (msg : Message)

def Flow.message : Flow → Message
  | .next msg | .exit msg | .abort msg => msg

/-! ## Configuration and surroundings -/

/-- Executor limits that decide outcomes. -/
structure PipelineLimits where
  maxSteps : Nat
  maxFanout : Nat
  maxFanoutBytes : Nat
  maxDepth : Nat
  materializeCap : Nat
  snapshotThreshold : Nat
  deriving DecidableEq, Repr

/-- The limits of an unconfigured tenant. -/
def PipelineLimits.default : PipelineLimits where
  maxSteps := 1000
  maxFanout := 1000
  maxFanoutBytes := 256 * 1024 * 1024
  maxDepth := 16
  materializeCap := 100 * 1024 * 1024
  snapshotThreshold := 1024 * 1024

/-- The configuration of one invocation. -/
structure Executor where
  limits : PipelineLimits
  retry : RetryPolicy
  invocationId : Str
  initialVars : Object
  initialVarsOrdered : OrderedMap.Ordered initialVars
  elevateRole : Option Str
  url : PathPattern.UrlView
  external : Option Outbound.ExternalDispatch

/-- The behaviour around an invocation.  Responses are given for every place and attempt,
so a responder may answer every request differently; `completion` orders the branches of a
fan-out, and `memberOrder` is that of the build. -/
structure World where
  codec : Codec
  evaluate : Evaluator
  sha256 : Octets → Octets
  internal : Place → (attempt : Nat) → Message → Message
  external : Place → (attempt grant : Nat) → Message → Except RsError Message
  completion : Place → (branches : Nat) → List Nat
  memberOrder : Value.MemberOrder := .byKey

/-- An invocation under default limits and a retry policy, without a URL plane, a role to
elevate to or a way out of the node. -/
def Executor.plain (retry : RetryPolicy) : Executor where
  limits := .default
  retry := retry
  invocationId := "inv"
  initialVars := []
  initialVarsOrdered := Object.ordered_nil
  elevateRole := none
  url := .empty
  external := none

/-- Surroundings that answer every internal request by its place and attempt, refuse the
rest, and complete branches in order. -/
def World.answering (codec : Codec) (internal : Place → Nat → Message → Message) : World where
  codec := codec
  evaluate := fun _ _ _ => .error (.badRequest "no expressions")
  sha256 := id
  internal := internal
  external := fun _ _ _ _ => .error (.internal "no network")
  completion := fun _ branches => List.range branches

/-- Surroundings in which every request succeeds. -/
def World.succeeding : World :=
  .answering Tagged.codec fun _ _ request => request.response 200 none

/-- The outcomes of a fan-out in the order of their completion. -/
def World.completed {α : Type} (world : World) (place : Place) (outcomes : List α) : List α :=
  (world.completion place outcomes.length).filterMap fun index => outcomes[index]?

end Rs2Runtime.Pipeline
