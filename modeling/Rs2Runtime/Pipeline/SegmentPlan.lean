import Rs2Runtime.Pipeline.Spec

/-!
Contract: the plan of a pipeline's segments and its warnings.

Owns:
- segments with their eligibility, and warnings with the place of the step they are about;
- the worker's planner, and that it gives the same plan;
- that segments partition the steps, and which steps are warned about.
-/

namespace Rs2Runtime.Pipeline

open Text

/-! ## Plans -/

/-- A segment; the input of an eligible one is materialized at entry. -/
structure PlannedSegment where
  segment : Segment
  checkpointEligible : Bool
  deriving DecidableEq, Repr

/-- A warning about a step: the steps whose nested pipelines lead to it, its index, its segment. -/
structure Warning where
  path : List Nat
  index : Nat
  segment : Segment
  deriving DecidableEq, Repr

def Warning.within (outer : Nat) (warning : Warning) : Warning :=
  { warning with path := outer :: warning.path }

structure SegmentPlan where
  segments : List PlannedSegment
  warnings : List Warning
  deriving DecidableEq, Repr

/-- Only serial pipelines are segmented; others are one segment. -/
def plannedSegments (spec : PipelineSpec) : List PlannedSegment :=
  if spec.mode ≠ .serial ∨ spec.steps = [] then [⟨⟨0, spec.steps.length⟩, false⟩]
  else (plan spec).map (⟨·, true⟩)

def warnsAt (steps : List Step) (segment : Segment) (index : Nat) : Option Warning :=
  if (steps[index]?).bind Step.effectClass = some .unsafe_ ∧ index + 1 ≠ segment.stop then
    some ⟨[], index, segment⟩
  else none

/-- Unsafe steps that are not the last of their segment. -/
def segmentWarnings (steps : List Step) (segment : Segment) : List Warning :=
  (List.range' segment.start (segment.stop - segment.start)).filterMap (warnsAt steps segment)

/-- The warnings of a pipeline about its own steps. -/
def ownWarnings (mode : Mode) (steps : List Step) : List Warning :=
  if mode ≠ .serial ∨ steps = [] then [] else (planFrom 0 0 steps).flatMap (segmentWarnings steps)

mutual

def warningsOf : PipelineSpec → List Warning
  | ⟨mode, _, _, _, _, steps⟩ => ownWarnings mode steps ++ collectWarnings 0 steps

/-- Warnings from nested pipelines, of the steps from an index on. -/
def collectWarnings (index : Nat) : List (StepOf PipelineSpec) → List Warning
  | [] => []
  | ⟨_, _, _, nested, _, _, _, _, _, _⟩ :: steps =>
    (nestedWarnings nested).map (Warning.within index) ++ collectWarnings (index + 1) steps

def nestedWarnings : Option PipelineSpec → List Warning
  | none => []
  | some spec => warningsOf spec

end

/-- The plan of a pipeline. -/
def segmentPlan (spec : PipelineSpec) : SegmentPlan :=
  ⟨plannedSegments spec, warningsOf spec⟩

/-! ## The worker's planner -/

variable {index start : Nat} {spec : PipelineSpec} {path : List Nat}

namespace Worker

/-- The indices at which segments start, after `last` and from `index` on, and the end. -/
def boundariesFrom (last index : Nat) : List Step → List Nat
  | [] => [index]
  | step :: steps =>
    if (step.transform.isSome || step.split.isSome) ∧ 0 < index ∧ last ≠ index then
      index :: boundariesFrom index (index + 1) steps
    else boundariesFrom last (index + 1) steps

/-- Segments between neighbouring boundaries. -/
def segmentsBetween (boundaries : List Nat) : List Segment :=
  List.zipWith Segment.mk boundaries boundaries.tail

def effectForMethod (method : Str) : EffectClass :=
  if method = "GET" ∨ method = "HEAD" ∨ method = "OPTIONS" then .pure
  else if method = "PUT" ∨ method = "DELETE" then .idempotent
  else .unsafe_

def isValidMethod (method : Str) : Bool :=
  method ≠ [] && method.all isTokenChar

def callEffectClass (call : CallSpec) : EffectClass :=
  call.effect.getD (if isValidMethod call.method then effectForMethod call.method else .unsafe_)

def segmentWarnings (steps : List Step) (segment : Segment) : List Warning :=
  (List.range' segment.start (segment.stop - segment.start)).filterMap fun index =>
    if (steps[index]?).bind (fun step => step.call.map callEffectClass) = some .unsafe_ ∧
        index + 1 ≠ segment.stop then
      some ⟨[], index, segment⟩
    else none

def ownPlan (mode : Mode) (steps : List Step) : SegmentPlan :=
  if mode ≠ .serial ∨ steps.length = 0 then ⟨[⟨⟨0, steps.length⟩, false⟩], []⟩
  else
    let segments := segmentsBetween (0 :: boundariesFrom 0 0 steps)
    ⟨segments.map (⟨·, true⟩), segments.flatMap (segmentWarnings steps)⟩

mutual

def plan : PipelineSpec → SegmentPlan
  | ⟨mode, _, _, _, _, steps⟩ =>
    ⟨(ownPlan mode steps).segments, (ownPlan mode steps).warnings ++ collectWarnings 0 steps⟩

def collectWarnings (index : Nat) : List (StepOf PipelineSpec) → List Warning
  | [] => []
  | ⟨_, _, _, nested, _, _, _, _, _, _⟩ :: steps =>
    (nestedWarnings nested).map (Warning.within index) ++ collectWarnings (index + 1) steps

def nestedWarnings : Option PipelineSpec → List Warning
  | none => []
  | some spec => (plan spec).warnings

end

theorem segmentsBetween_eq_planFrom {last : Nat} (opened : last ≤ index) (steps : List Step) :
    segmentsBetween (last :: boundariesFrom last index steps) = planFrom last index steps := by
  induction steps generalizing last index with
  | nil => rfl
  | cons step steps ih =>
    have same : 0 < index ∧ last ≠ index ↔ last < index := by omega
    rw [boundariesFrom, planFrom, materializes]
    simp only [same]
    split
    · rw [← ih (Nat.le_succ index)]
      rfl
    · exact ih (Nat.le_succ_of_le opened)

/-- Both sides give a method the same class. -/
theorem effectForMethod_eq (method : Str) :
    (if isValidMethod method then effectForMethod method else .unsafe_) =
      ((Method.fromBytes method).map EffectClass.defaultForMethod).getD .unsafe_ := by
  by_cases known : method ∈ ([("GET" : Str), "HEAD", "POST", "PUT", "DELETE", "PATCH", "OPTIONS",
      "CONNECT", "TRACE"] : List Str)
  · revert method
    decide
  · simp only [List.mem_cons, List.not_mem_nil, or_false, not_or] at known
    obtain ⟨get, head, post, put, delete, patch, options, connect, trace⟩ := known
    have other : effectForMethod method = .unsafe_ := by
      unfold effectForMethod
      rw [if_neg (by simp only [get, head, options, or_self, not_false_eq_true]),
        if_neg (by simp only [put, delete, or_self, not_false_eq_true])]
    rw [other, ite_self, Method.fromBytes, if_neg get, if_neg head, if_neg post, if_neg put,
      if_neg delete, if_neg patch, if_neg options, if_neg connect, if_neg trace]
    split <;> rfl

theorem segmentWarnings_eq (steps : List Step) (segment : Segment) :
    segmentWarnings steps segment = Pipeline.segmentWarnings steps segment := by
  have classes : callEffectClass = CallSpec.effectClass :=
    funext fun call => congrArg call.effect.getD (effectForMethod_eq call.method)
  unfold segmentWarnings
  rw [classes]
  rfl

theorem ownPlan_eq (mode : Mode) (steps : List Step) :
    (ownPlan mode steps).warnings = ownWarnings mode steps ∧
      ∀ onFail onSucceed concurrency join,
        (ownPlan mode steps).segments =
          plannedSegments ⟨mode, onFail, onSucceed, concurrency, join, steps⟩ := by
  unfold ownPlan ownWarnings plannedSegments
  simp only [List.length_eq_zero_iff]
  split
  · exact ⟨rfl, fun _ _ _ _ => rfl⟩
  · have own : segmentWarnings steps = Pipeline.segmentWarnings steps :=
      funext (segmentWarnings_eq steps)
    rw [segmentsBetween_eq_planFrom (Nat.le_refl 0) steps, own]
    exact ⟨rfl, fun _ _ _ _ => rfl⟩

mutual

/-- The worker plans every pipeline as the runtime does. -/
theorem plan_eq : (spec : PipelineSpec) → plan spec = segmentPlan spec
  | ⟨mode, onFail, onSucceed, concurrency, join, steps⟩ => by
      rw [plan, segmentPlan, warningsOf, (ownPlan_eq mode steps).1, (ownPlan_eq mode steps).2,
        collectWarnings_eq 0 steps]

theorem collectWarnings_eq (index : Nat) : (steps : List (StepOf PipelineSpec)) →
    collectWarnings index steps = Pipeline.collectWarnings index steps
  | [] => rfl
  | ⟨_, _, _, nested, _, _, _, _, _, _⟩ :: steps => by
      rw [collectWarnings, Pipeline.collectWarnings, nestedWarnings_eq nested,
        collectWarnings_eq (index + 1) steps]

theorem nestedWarnings_eq :
    (nested : Option PipelineSpec) → nestedWarnings nested = Pipeline.nestedWarnings nested
  | none => rfl
  | some spec => by
      rw [nestedWarnings, Pipeline.nestedWarnings, plan_eq spec]
      rfl

end

end Worker

/-! ## Segments partition the steps -/

/-- Segments that cover the indices from `start` to `stop`, each once and none of them empty. -/
inductive Partitions : (start stop : Nat) → List Segment → Prop
  | single {start stop : Nat} (present : start < stop) : Partitions start stop [⟨start, stop⟩]
  | cons {start middle stop : Nat} {segments : List Segment} (present : start < middle)
      (later : Partitions middle stop segments) :
      Partitions start stop (⟨start, middle⟩ :: segments)

theorem Partitions.start_le {stop : Nat} {segments : List Segment}
    (partitions : Partitions start stop segments) :
    ∀ segment ∈ segments, start ≤ segment.start := by
  induction partitions with
  | single present => simp
  | cons present later ih =>
    intro segment member
    rcases List.mem_cons.mp member with rfl | inLater
    · exact Nat.le_refl _
    · exact Nat.le_trans (Nat.le_of_lt present) (ih segment inLater)

/-- Every index is in exactly one segment of a partition. -/
theorem Partitions.existsUnique {stop : Nat} {segments : List Segment}
    (partitions : Partitions start stop segments) (after : start ≤ index) (before : index < stop) :
    ∃! segment, segment ∈ segments ∧ segment.start ≤ index ∧ index < segment.stop := by
  induction partitions with
  | single present =>
    refine ⟨_, ⟨List.mem_singleton_self _, after, before⟩, fun segment isOther => ?_⟩
    exact List.mem_singleton.mp isOther.1
  | @cons start middle stop segments present later ih =>
    by_cases inFirst : index < middle
    · refine ⟨⟨start, middle⟩, ⟨List.mem_cons_self, after, inFirst⟩, fun segment isOther => ?_⟩
      rcases List.mem_cons.mp isOther.1 with same | inLater
      · exact same
      · have behind := later.start_le segment inLater
        omega
    · obtain ⟨segment, ⟨member, bounds⟩, unique⟩ := ih (by omega) before
      refine ⟨segment, ⟨List.mem_cons_of_mem _ member, bounds⟩, fun other isOther => ?_⟩
      rcases List.mem_cons.mp isOther.1 with rfl | inLater
      · exact absurd isOther.2.2 inFirst
      · exact unique other ⟨inLater, isOther.2⟩

theorem partitions_planFrom (opened : start < index) (steps : List Step) :
    Partitions start (index + steps.length) (planFrom start index steps) := by
  induction steps generalizing start index with
  | nil => exact .single opened
  | cons step steps ih =>
    rw [planFrom, List.length_cons, show index + (steps.length + 1) = index + 1 + steps.length by
      omega]
    split
    · exact .cons opened (ih (Nat.lt_succ_self index))
    · exact ih (Nat.lt_succ_of_lt opened)

/-- Segments start where they are opened and before each materialization point. -/
theorem start_planFrom (opened : start < index) (steps : List Step) (boundary : Nat) :
    (∃ segment ∈ planFrom start index steps, segment.start = boundary) ↔
      boundary = start ∨ ∃ offset step, boundary = index + offset ∧
        steps[offset]? = some step ∧ materializes step = true := by
  induction steps generalizing start index with
  | nil =>
    rw [planFrom]
    simp only [List.mem_singleton, exists_eq_left, List.getElem?_nil, reduceCtorEq, false_and,
      and_false, exists_false, or_false]
    exact eq_comm
  | cons step steps ih =>
    have shifted : (∃ offset found, boundary = index + offset ∧
        (step :: steps)[offset]? = some found ∧ materializes found = true) ↔
          boundary = index ∧ materializes step = true ∨
            ∃ offset found, boundary = index + 1 + offset ∧ steps[offset]? = some found ∧
              materializes found = true := by
      constructor
      · rintro ⟨offset, found, same, isFound, needs⟩
        cases offset with
        | zero =>
          cases isFound
          exact Or.inl ⟨same, needs⟩
        | succ offset => exact Or.inr ⟨offset, found, by omega, isFound, needs⟩
      · rintro (⟨same, needs⟩ | ⟨offset, found, same, isFound, needs⟩)
        · exact ⟨0, step, same, rfl, needs⟩
        · exact ⟨offset + 1, found, by omega, isFound, needs⟩
    rw [planFrom, shifted]
    by_cases needs : materializes step = true
    · rw [if_pos ⟨needs, opened⟩]
      simp only [List.mem_cons, exists_eq_or_imp, ih (Nat.lt_succ_self index), needs, and_true]
      rw [eq_comm]
    · rw [if_neg fun both => needs both.1, ih (Nat.lt_succ_of_lt opened)]
      simp only [needs, Bool.false_eq_true, and_false, false_or]

/-! ## Which steps are warned about -/

/-- The pipeline that nested ones lead to, by the indices of their steps. -/
inductive PipelineAt : PipelineSpec → List Nat → PipelineSpec → Prop
  | here (spec : PipelineSpec) : PipelineAt spec [] spec
  | nested {spec inner found : PipelineSpec} {index : Nat} {step : Step} {path : List Nat}
      (member : spec.steps[index]? = some step) (below : step.pipeline = some inner)
      (inside : PipelineAt inner path found) : PipelineAt spec (index :: path) found

theorem PipelineAt.unique {found other : PipelineSpec} (isFound : PipelineAt spec path found)
    (isOther : PipelineAt spec path other) :
    other = found := by
  induction isFound with
  | here =>
    cases isOther
    rfl
  | nested member below _ ih =>
    cases isOther with
    | nested member' below' inside' =>
      rw [member] at member'
      cases member'
      rw [below] at below'
      cases below'
      exact ih inside'

theorem mem_ownWarnings {mode : Mode} {steps : List Step} {warning : Warning} :
    warning ∈ ownWarnings mode steps ↔
      warning.path = [] ∧ mode = .serial ∧ warning.segment ∈ planFrom 0 0 steps ∧
        warning.segment.start ≤ warning.index ∧ warning.index + 1 < warning.segment.stop ∧
          (steps[warning.index]?).bind Step.effectClass = some .unsafe_ := by
  obtain ⟨path, index, segment⟩ := warning
  unfold ownWarnings
  split
  case isTrue other =>
    refine ⟨nofun, ?_⟩
    rintro ⟨-, serial, -, -, -, unsafe_⟩
    rcases other with notSerial | rfl
    · exact absurd serial notSerial
    · cases unsafe_
  case isFalse own =>
    have serial : mode = .serial := by
      by_contra notSerial
      exact own (Or.inl notSerial)
    simp only [List.mem_flatMap, segmentWarnings, List.mem_filterMap, List.mem_range', warnsAt,
      Option.ite_none_right_eq_some, Option.some.injEq, Warning.mk.injEq]
    constructor
    · rintro ⟨_, member, _, ⟨offset, inside, rfl⟩, ⟨unsafe_, notLast⟩, rfl, rfl, rfl⟩
      exact ⟨rfl, serial, member, by omega, by omega, unsafe_⟩
    · rintro ⟨rfl, -, member, after, before, unsafe_⟩
      exact ⟨segment, member, index, ⟨index - segment.start, by omega, by omega⟩,
        ⟨unsafe_, by omega⟩, rfl, rfl, rfl⟩

theorem mem_collectWarnings {steps : List Step} {warning : Warning} :
    warning ∈ collectWarnings index steps ↔
      ∃ offset step inner nested, steps[offset]? = some step ∧ step.pipeline = some inner ∧
        nested ∈ warningsOf inner ∧ warning = nested.within (index + offset) := by
  induction steps generalizing index with
  | nil => simp [collectWarnings]
  | cons step steps ih =>
    obtain ⟨condition, call, transform, pipeline, split, tryMode, elevate, capture, name, retry⟩ :=
      step
    rw [collectWarnings, List.mem_append, List.mem_map, ih]
    constructor
    · rintro (⟨nested, member, rfl⟩ | ⟨offset, step, inner, nested, isStep, below, member, rfl⟩)
      · cases pipeline with
        | none => cases member
        | some inner => exact ⟨0, _, inner, nested, rfl, rfl, member, rfl⟩
      · refine ⟨offset + 1, step, inner, nested, isStep, below, member, ?_⟩
        rw [Nat.add_right_comm, Nat.add_assoc]
    · rintro ⟨offset, step, inner, nested, isStep, below, member, rfl⟩
      cases offset with
      | zero =>
        cases isStep
        cases below
        exact Or.inl ⟨nested, member, rfl⟩
      | succ offset =>
        refine Or.inr ⟨offset, step, inner, nested, isStep, below, member, ?_⟩
        rw [Nat.add_right_comm, Nat.add_assoc]

theorem warningsOf_eq (spec : PipelineSpec) :
    warningsOf spec = ownWarnings spec.mode spec.steps ++ collectWarnings 0 spec.steps := by
  obtain ⟨mode, onFail, onSucceed, concurrency, join, steps⟩ := spec
  rw [warningsOf]

/-- The warnings of a plan are the own ones of the pipelines nested in it. -/
theorem mem_warningsOf {segment : Segment} :
    ⟨path, index, segment⟩ ∈ warningsOf spec ↔
      ∃ inner, PipelineAt spec path inner ∧
        ⟨[], index, segment⟩ ∈ ownWarnings inner.mode inner.steps := by
  induction path generalizing spec with
  | nil =>
    rw [warningsOf_eq, List.mem_append]
    constructor
    · rintro (own | collected)
      · exact ⟨spec, .here spec, own⟩
      · obtain ⟨_, _, _, _, _, _, _, same⟩ := mem_collectWarnings.mp collected
        cases same
    · rintro ⟨inner, isInner, own⟩
      cases isInner
      exact Or.inl own
  | cons outer path ih =>
    rw [warningsOf_eq, List.mem_append]
    constructor
    · rintro (own | collected)
      · cases (mem_ownWarnings.mp own).1
      · obtain ⟨offset, step, below, nested, isStep, isBelow, member, same⟩ :=
          mem_collectWarnings.mp collected
        obtain ⟨nestedPath, nestedIndex, nestedSegment⟩ := nested
        rw [Nat.zero_add] at same
        cases same
        obtain ⟨inner, isInner, own⟩ := ih.mp member
        exact ⟨inner, .nested isStep isBelow isInner, own⟩
    · rintro ⟨inner, isInner, own⟩
      cases isInner with
      | nested isStep isBelow inside =>
        refine Or.inr (mem_collectWarnings.mpr ?_)
        refine ⟨outer, _, _, _, isStep, isBelow, ih.mpr ⟨inner, inside, own⟩, ?_⟩
        rw [Nat.zero_add]
        rfl

/-- Whether a plan warns about the step at a place. -/
def Warns (spec : PipelineSpec) (path : List Nat) (index : Nat) : Prop :=
  ∃ warning ∈ (segmentPlan spec).warnings, warning.path = path ∧ warning.index = index

theorem warns_iff {inner : PipelineSpec} {step : Step} (isInner : PipelineAt spec path inner)
    (isStep : inner.steps[index]? = some step) :
    Warns spec path index ↔
      inner.mode = .serial ∧ step.effectClass = some .unsafe_ ∧
        ∃ segment ∈ plan inner, segment.start ≤ index ∧ index + 1 < segment.stop := by
  constructor
  · rintro ⟨⟨_, _, segment⟩, member, rfl, rfl⟩
    obtain ⟨other, isOther, own⟩ := mem_warningsOf.mp member
    cases isInner.unique isOther
    obtain ⟨-, serial, planned, after, before, unsafe_⟩ := mem_ownWarnings.mp own
    rw [isStep] at unsafe_
    exact ⟨serial, unsafe_, segment, planned, after, before⟩
  · rintro ⟨serial, unsafe_, segment, planned, after, before⟩
    refine ⟨⟨path, index, segment⟩, mem_warningsOf.mpr ⟨inner, isInner, ?_⟩, rfl, rfl⟩
    rw [mem_ownWarnings, isStep]
    exact ⟨rfl, serial, planned, after, before, unsafe_⟩

/-! ## The plan of every pipeline -/

/-- The segments of a pipeline with steps: a partition of its indices that starts new segments of
a serial pipeline exactly before materialization points. -/
structure Segmented (spec : PipelineSpec) (segments : List Segment) : Prop where
  partitions : Partitions 0 spec.steps.length segments
  once : ∀ index < spec.steps.length,
    ∃! segment, segment ∈ segments ∧ segment.start ≤ index ∧ index < segment.stop
  starts : ∀ boundary, (∃ segment ∈ segments, segment.start = boundary) ↔
    boundary = 0 ∨ spec.mode = .serial ∧ 0 < boundary ∧
      ∃ step, spec.steps[boundary]? = some step ∧ materializes step = true

theorem map_plannedSegments (present : spec.steps ≠ []) :
    (plannedSegments spec).map PlannedSegment.segment =
      if spec.mode = .serial then plan spec else [⟨0, spec.steps.length⟩] := by
  unfold plannedSegments
  by_cases serial : spec.mode = .serial
  · have own : ¬(spec.mode ≠ .serial ∨ spec.steps = []) := by simp [serial, present]
    rw [if_neg own, if_pos serial, List.map_map]
    exact List.map_id (plan spec)
  · rw [if_pos (Or.inl serial), if_neg serial]
    rfl

theorem segmented_plannedSegments (present : spec.steps ≠ []) :
    Segmented spec ((plannedSegments spec).map PlannedSegment.segment) := by
  rw [map_plannedSegments present]
  have segmented {segments : List Segment} (partitions : Partitions 0 spec.steps.length segments)
      (starts : ∀ boundary, (∃ segment ∈ segments, segment.start = boundary) ↔
        boundary = 0 ∨ spec.mode = .serial ∧ 0 < boundary ∧
          ∃ step, spec.steps[boundary]? = some step ∧ materializes step = true) :
      Segmented spec segments :=
    ⟨partitions, fun index before => partitions.existsUnique (Nat.zero_le index) before, starts⟩
  obtain ⟨first, rest, shape⟩ := List.exists_cons_of_ne_nil present
  split
  case isTrue serial =>
    have planned : plan spec = planFrom 0 1 rest := by
      rw [plan, shape, planFrom, if_neg fun opened => Nat.lt_irrefl 0 opened.2]
    rw [planned]
    refine segmented ?_ fun boundary => ?_
    · rw [shape, List.length_cons, Nat.add_comm]
      exact partitions_planFrom Nat.zero_lt_one rest
    · rw [start_planFrom Nat.zero_lt_one rest boundary, shape, and_iff_right serial]
      refine or_congr_right ⟨?_, ?_⟩
      · rintro ⟨offset, step, rfl, isStep, needs⟩
        rw [Nat.add_comm]
        exact ⟨Nat.succ_pos offset, step, isStep, needs⟩
      · rintro ⟨positive, step, isStep, needs⟩
        obtain ⟨offset, rfl⟩ : ∃ offset, boundary = offset + 1 := ⟨boundary - 1, by omega⟩
        exact ⟨offset, step, Nat.add_comm offset 1, isStep, needs⟩
  case isFalse notSerial =>
    refine segmented (.single (List.length_pos_of_ne_nil present)) fun boundary => ?_
    rw [or_iff_left fun other => notSerial other.1]
    constructor
    · rintro ⟨segment, member, rfl⟩
      rw [List.mem_singleton.mp member]
    · rintro rfl
      exact ⟨_, List.mem_singleton_self _, rfl⟩

/-- For every pipeline: its segments partition its steps, but for one without steps, which is the
empty segment; one that is not serial is a single segment; the plan warns about a step at any
depth exactly if its pipeline is serial, its effect is unsafe and its segment goes on after it;
and the worker makes the same plan. -/
theorem plan_partitions_and_warns (spec : PipelineSpec) :
    (spec.steps ≠ [] → Segmented spec ((segmentPlan spec).segments.map PlannedSegment.segment)) ∧
      (spec.mode ≠ .serial ∨ spec.steps = [] →
        (segmentPlan spec).segments = [⟨⟨0, spec.steps.length⟩, false⟩]) ∧
      (∀ path inner index (step : Step), PipelineAt spec path inner →
        inner.steps[index]? = some step → (Warns spec path index ↔
          inner.mode = .serial ∧ step.effectClass = some .unsafe_ ∧
            ∃ segment ∈ plan inner, segment.start ≤ index ∧ index + 1 < segment.stop)) ∧
      Worker.plan spec = segmentPlan spec := by
  refine ⟨fun present => ?_, fun single => ?_, fun path inner index step isInner isStep => ?_,
    Worker.plan_eq spec⟩
  · exact segmented_plannedSegments present
  · exact if_pos single
  · exact warns_iff isInner isStep

/-- A branch that is run as a serial pipeline, with a request behind an unsafe one. -/
def unwarned : PipelineSpec :=
  { PipelineSpec.serial none [Step.callTo "POST" "/a", Step.callTo "GET" "/b"] with mode := .tee }

/-- The branch is one segment when it runs, and nothing warns about its first step; a pipeline
without steps is planned as a segment that is empty. -/
theorem branch_is_not_warned_about :
    plan { unwarned with mode := .serial } = [⟨0, 2⟩] ∧ (segmentPlan unwarned).warnings = [] ∧
      (∃ warning ∈ (segmentPlan { unwarned with mode := .serial }).warnings, warning.index = 0) ∧
      ∃ planned ∈ (segmentPlan (.serial none [])).segments,
        ¬ planned.segment.start < planned.segment.stop := by
  decide +kernel

end Rs2Runtime.Pipeline
