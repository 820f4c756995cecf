import Rs2Runtime.PathPattern.Basic
import Rs2Runtime.Pipeline.Condition
import Rs2Runtime.Pipeline.Retry

/-!
Contract: typed pipeline specifications.

Owns:
- modes, actions, call and step descriptions, and nested pipelines;
- the actions and effect classes they default to;
- validation, with its messages and their places;
- the plan of a serial pipeline's segments;
- occurrence of a step anywhere in a specification.

Does not own: the JSON and string forms a specification is read from.
-/

namespace Rs2Runtime.Pipeline

open Text Data Json

inductive Mode where
  | serial
  | parallel
  | conditional
  | tee
  | teeWait
  deriving DecidableEq, Repr

/-- What happens after a step. -/
inductive Action where
  | stop
  | next
  | end_
  deriving DecidableEq, Repr

/-- How named messages become one. -/
inductive Joiner where
  | jsonObject
  deriving DecidableEq, Repr

/-- How one message becomes several. -/
inductive Splitter where
  | jsonSplit
  deriving DecidableEq, Repr

/-- A call made by a step.  Headers stand in the order they are iterated. -/
structure CallSpec where
  method : Str
  url : Str
  effect : Option EffectClass
  headers : Option (List (Str × Str))
  deriving DecidableEq, Repr

def CallSpec.effectClass (call : CallSpec) : EffectClass :=
  call.effect.getD (((Method.fromBytes call.method).map EffectClass.defaultForMethod).getD .unsafe_)

/-- A step over a type of nested pipelines. -/
structure StepOf (Nested : Type) where
  condition : Option Str
  call : Option CallSpec
  transform : Option Value
  pipeline : Option Nested
  split : Option Splitter
  tryMode : Bool
  elevate : Bool
  capture : Option Str
  name : Option Str
  retry : Option RetryPolicy

/-- A pipeline. -/
structure PipelineSpec where
  mode : Mode
  onFail : Option Action
  onSucceed : Option Action
  concurrency : Option Nat
  join : Option Joiner
  steps : List (StepOf PipelineSpec)

/-- A step of a pipeline. -/
abbrev Step := StepOf PipelineSpec

namespace Step

/-- A step without an action. -/
def blank : Step where
  condition := none
  call := none
  transform := none
  pipeline := none
  split := none
  tryMode := false
  elevate := false
  capture := none
  name := none
  retry := none

/-- A call with the default effect class of its method. -/
def callTo (method url : Str) : Step :=
  { blank with call := some ⟨method, url, none, none⟩ }

def nested (spec : PipelineSpec) : Step :=
  { blank with pipeline := some spec }

def splitting : Step :=
  { blank with split := some .jsonSplit }

def effectClass (step : Step) : Option EffectClass :=
  step.call.map CallSpec.effectClass

end Step

namespace PipelineSpec

/-- A serial pipeline. -/
def serial (onFail : Option Action) (steps : List Step) : PipelineSpec where
  mode := .serial
  onFail := onFail
  onSucceed := none
  concurrency := none
  join := none
  steps := steps

def failAction (spec : PipelineSpec) : Action :=
  spec.onFail.getD (if spec.mode = .parallel then .stop else .next)

def succeedAction (spec : PipelineSpec) : Action :=
  spec.onSucceed.getD (if spec.mode = .conditional then .end_ else .next)

end PipelineSpec

/-! ## Step counts -/

mutual

/-- Steps of a pipeline, nested ones included. -/
def countSteps : PipelineSpec → Nat
  | ⟨_, _, _, _, _, steps⟩ => countStepList steps

def countStepList : List (StepOf PipelineSpec) → Nat
  | [] => 0
  | ⟨_, _, _, nested, _, _, _, _, _, _⟩ :: steps => 1 + countNested nested + countStepList steps

def countNested : Option PipelineSpec → Nat
  | none => 0
  | some spec => countSteps spec

end

/-! ## Validation -/

mutual

/-- The leaves of a transform template that are no expressions. -/
def templateErrors (exprError : Str → Option Str) (at_ : Str) : Value → List Str
  | .str expr =>
    match exprError expr with
    | none => []
    | some e =>
      [at_ ++ (": invalid JSONata expression '" : Str) ++ expr ++ ("': " : Str) ++ e]
  | .obj fields => templateFieldErrors exprError at_ fields
  | .arr items => templateItemErrors exprError at_ items
  | .null | .bool _ | .num _ => []

def templateItemErrors (exprError : Str → Option Str) (at_ : Str) : List Value → List Str
  | [] => []
  | item :: items =>
    templateErrors exprError at_ item ++ templateItemErrors exprError at_ items

def templateFieldErrors (exprError : Str → Option Str) (at_ : Str) :
    List (Str × Value) → List Str
  | [] => []
  | (_, value) :: fields =>
    templateErrors exprError at_ value ++ templateFieldErrors exprError at_ fields

end

/-- The problems of one call header. -/
def headerErrors (here : Str) (header : Str × Str) : List Str :=
  (if (headerName header.1).isNone then
    [here ++ (": invalid header name '" : Str) ++ header.1 ++ ("'" : Str)] else []) ++
  match PathPattern.validate header.2 with
  | .error e => [here ++ (": in header '" : Str) ++ header.1 ++ ("': " : Str) ++ e.detail]
  | .ok _ => []

/-- The problems of a call. -/
def callErrors (here : Str) (call : CallSpec) : List Str :=
  (if (Method.fromBytes call.method).isNone then
    [here ++ (": invalid method '" : Str) ++ call.method ++ ("'" : Str)] else []) ++
  (match PathPattern.validate call.url with
    | .error e => [here ++ (": " : Str) ++ e.detail]
    | .ok _ => []) ++
  (call.headers.getD []).flatMap (headerErrors here)

/-- The problems of a step apart from those of its nested pipeline. -/
def stepErrors (exprError : Str → Option Str) (here : Str) (step : Step) : List Str :=
  (if step.call.isSome.toNat + step.transform.isSome.toNat + step.pipeline.isSome.toNat +
      step.split.isSome.toNat = 1 then [] else
    [here ++ (": a step must have exactly one of call/transform/pipeline/split" : Str)]) ++
  (match step.condition with
    | none => []
    | some source =>
      match Condition.parse source with
      | .ok _ => []
      | .error e =>
        [here ++ (": invalid condition '" : Str) ++ source ++ ("': " : Str) ++ e]) ++
  (if step.capture.all (·.head? = some '$') then [] else
    [here ++ (": 'as' must name a variable starting with '$'" : Str)]) ++
  ((step.call.map (callErrors here)).getD []) ++
  ((step.transform.map (templateErrors exprError here)).getD []) ++
  (if step.elevate && step.call.isNone then
    [here ++ (": 'elevate' applies only to call steps" : Str)] else [])

/-- The problems of a pipeline apart from those of its steps. -/
def shapeErrors (at_ : Str) (spec : PipelineSpec) : List Str :=
  (if spec.steps.isEmpty then [at_ ++ (": pipeline has no steps" : Str)] else []) ++
  (if spec.mode = .parallel ∧ spec.onFail.any (· ≠ .stop) then
    [at_ ++ (": parallel mode must stop on fail" : Str)] else []) ++
  (if spec.onSucceed = some .stop then
    [at_ ++ (": cannot stop on success or the pipeline always fails" : Str)] else [])

mutual

/-- Every problem of a pipeline and of the pipelines nested in it. -/
def validateInto (exprError : Str → Option Str) (at_ : Str) : PipelineSpec → List Str
  | ⟨mode, onFail, onSucceed, concurrency, join, steps⟩ =>
    shapeErrors at_ ⟨mode, onFail, onSucceed, concurrency, join, steps⟩ ++
      validateSteps exprError at_ 0 steps

def validateSteps (exprError : Str → Option Str) (at_ : Str) (index : Nat) :
    List (StepOf PipelineSpec) → List Str
  | [] => []
  | ⟨condition, call, transform, nested, split, tryMode, elevate, capture, name, retry⟩ ::
      steps =>
      let here := at_ ++ ("/steps[" : Str) ++ natStr index ++ ("]" : Str)
      stepErrors exprError here
          ⟨condition, call, transform, nested, split, tryMode, elevate, capture, name, retry⟩ ++
        validateNested exprError here nested ++ validateSteps exprError at_ (index + 1) steps

def validateNested (exprError : Str → Option Str) (here : Str) : Option PipelineSpec → List Str
  | none => []
  | some spec => validateInto exprError here spec

end

/-- All problems of a specification; `exprError` is the parser of transform expressions. -/
def PipelineSpec.validate (exprError : Str → Option Str) (spec : PipelineSpec) : List Str :=
  validateInto exprError [] spec

/-! ## Segments -/

/-- A range of step indices, the unit of retry. -/
structure Segment where
  start : Nat
  stop : Nat
  deriving DecidableEq, Repr

/-- Whether a step needs a materialized body. -/
def materializes (step : Step) : Bool :=
  step.transform.isSome || step.split.isSome

/-- Split indices before each materialization point.  `start` is the first index of the
segment that is open at `index`. -/
def planFrom (start index : Nat) : List Step → List Segment
  | [] => [⟨start, index⟩]
  | step :: steps =>
    if materializes step ∧ start < index then
      ⟨start, index⟩ :: planFrom index (index + 1) steps
    else
      planFrom start (index + 1) steps

/-- The segments of a serial pipeline. -/
def plan (spec : PipelineSpec) : List Segment :=
  planFrom 0 0 spec.steps

/-! ## Occurrence -/

/-- A step stands in a pipeline or in one nested in it. -/
inductive Occurs (step : Step) : PipelineSpec → Prop where
  | here {spec : PipelineSpec} (member : step ∈ spec.steps) : Occurs step spec
  | nested {spec inner : PipelineSpec} {outer : Step} (member : outer ∈ spec.steps)
      (below : outer.pipeline = some inner) (occurs : Occurs step inner) : Occurs step spec

/-- What occurs in some of the steps occurs in the pipeline. -/
theorem Occurs.mono {step : Step} {small large : PipelineSpec}
    (subset : ∀ member ∈ small.steps, member ∈ large.steps) (occurs : Occurs step small) :
    Occurs step large := by
  cases occurs with
  | here member => exact .here (subset _ member)
  | nested member below occurs => exact .nested (subset _ member) below occurs

end Rs2Runtime.Pipeline
