import Mathlib

/-!
Contract: fallible computations that leave a trace of events.

Owns:
- the monad of an outcome with the events up to it, and its concurrent and detached forms;
- pre- and postcondition rules for events and results, of one run and of two runs side by side;
- the rule that marked events occur at most once, over disjoint regions of marks.
-/

namespace Rs2Runtime.Data

universe u v w

/-- An outcome together with the events before it. -/
structure Traced (ε : Type u) (ω : Type v) (α : Type w) where
  events : List ω
  outcome : Except ε α

namespace Traced

variable {ε : Type u} {ω : Type v} {α β γ : Type w}

/-! ## Operations -/

/-- Run `next` on a successful outcome, and keep the events of both. -/
def andThen (first : Traced ε ω α) (next : α → Traced ε ω β) : Traced ε ω β :=
  match first.outcome with
  | .error failure => ⟨first.events, .error failure⟩
  | .ok value => ⟨first.events ++ (next value).events, (next value).outcome⟩

instance : Monad (Traced ε ω) where
  pure value := ⟨[], .ok value⟩
  bind := andThen

/-- Fail without an event. -/
def fail (failure : ε) : Traced ε ω α :=
  ⟨[], .error failure⟩

/-- An outcome without events. -/
def ofExcept (outcome : Except ε α) : Traced ε ω α :=
  ⟨[], outcome⟩

/-- One event. -/
def emit (event : ω) : Traced ε ω PUnit.{w + 1} :=
  ⟨[event], .ok PUnit.unit⟩

/-- Run computations side by side; all of them run to their end. -/
def gather (branches : List (Traced ε ω α)) : Traced ε ω (List (Except ε α)) :=
  ⟨branches.flatMap events, .ok (branches.map outcome)⟩

/-- Keep the events of a computation and forget its outcome. -/
def detach (branch : Traced ε ω α) : Traced ε ω PUnit.{w + 1} :=
  ⟨branch.events, .ok PUnit.unit⟩

theorem bind_def (first : Traced ε ω α) (next : α → Traced ε ω β) :
    first >>= next = first.andThen next := rfl

variable {first : Traced ε ω α} {value : α} {next next' : α → Traced ε ω β} {outcome : Except ε α}
  {event : ω}

theorem bind_of_ok (succeeded : first.outcome = .ok value) (next : α → Traced ε ω β) :
    first >>= next = ⟨first.events ++ (next value).events, (next value).outcome⟩ := by
  rw [bind_def, andThen, succeeded]

theorem bind_of_error {failure : ε} (failed : first.outcome = .error failure)
    (next : α → Traced ε ω β) :
    first >>= next = ⟨first.events, .error failure⟩ := by
  rw [bind_def, andThen, failed]

theorem bind_pure_self (first : Traced ε ω α) : first >>= pure = first := by
  cases ended : first.outcome with
  | error failure =>
    rw [bind_of_error ended, ← ended]
  | ok value =>
    rw [bind_of_ok ended]
    change Traced.mk (first.events ++ []) (.ok value) = first
    rw [List.append_nil, ← ended]

theorem bind_bind (first : Traced ε ω α) (next : α → Traced ε ω β) (last : β → Traced ε ω γ) :
    first >>= next >>= last = first >>= fun value => next value >>= last := by
  cases ended : first.outcome with
  | error failure =>
    rw [bind_of_error ended, bind_of_error ended, bind_of_error rfl]
  | ok value =>
    rw [bind_of_ok ended, bind_of_ok ended]
    cases further : (next value).outcome with
    | error failure => rw [bind_of_error rfl, bind_of_error further]
    | ok between => rw [bind_of_ok rfl, bind_of_ok further, List.append_assoc]

instance : LawfulMonad (Traced ε ω) :=
  LawfulMonad.mk' (Traced ε ω) bind_pure_self (fun _ _ => rfl) bind_bind

/-- Continuations need only agree on the result. -/
theorem bind_congr_of_ok (same : ∀ value, first.outcome = .ok value → next value = next' value) :
    first >>= next = first >>= next' := by
  cases ended : first.outcome with
  | error failure => rw [bind_of_error ended, bind_of_error ended]
  | ok value => rw [bind_of_ok ended, bind_of_ok ended, same value ended]

/-! ## Events and results -/

/-- Every event satisfies `holds`, and a successful outcome satisfies `result`. -/
def Yields (holds : ω → Prop) (result : α → Prop) (run : Traced ε ω α) : Prop :=
  (∀ event ∈ run.events, holds event) ∧ ∀ value, run.outcome = .ok value → result value

section Yields

variable {holds : ω → Prop} {result : α → Prop} {result' : β → Prop}

theorem yields_pure (known : result value) : Yields holds result (pure value : Traced ε ω α) := by
  refine ⟨nofun, fun other same => ?_⟩
  cases same
  exact known

theorem yields_fail (failure : ε) : Yields holds result (fail failure : Traced ε ω α) :=
  ⟨nofun, nofun⟩

theorem yields_ofExcept (known : ∀ value, outcome = .ok value → result value) :
    Yields holds result (ofExcept outcome : Traced ε ω α) :=
  ⟨nofun, known⟩

theorem yields_emit (known : holds event) :
    Yields holds (fun _ => True) (emit event : Traced ε ω PUnit) := by
  refine ⟨fun other member => ?_, fun _ _ => trivial⟩
  rw [List.mem_singleton.mp member]
  exact known

theorem yields_bind (before : Yields holds result first)
    (after : ∀ value, result value → Yields holds result' (next value)) :
    Yields holds result' (first >>= next) := by
  rw [bind_def, andThen]
  cases ended : first.outcome with
  | error failure => exact ⟨before.1, nofun⟩
  | ok value =>
    have later := after value (before.2 value ended)
    refine ⟨fun event member => ?_, later.2⟩
    rcases List.mem_append.mp member with early | late
    · exact before.1 event early
    · exact later.1 event late

end Yields

/-! ## Two runs side by side -/

/-- Two outcomes are the same failure or related values. -/
inductive Alike (related : α → α → Prop) : Except ε α → Except ε α → Prop
  | error (failure : ε) : Alike related (.error failure) (.error failure)
  | ok {value value' : α} (known : related value value') : Alike related (.ok value) (.ok value')

/-- The events of two runs are related one by one, and so are their results. -/
def Pairs (shows : ω → ω → Prop) (related : α → α → Prop) (run run' : Traced ε ω α) : Prop :=
  List.Forall₂ shows run.events run'.events ∧ Alike related run.outcome run'.outcome

section Pairs

variable {shows : ω → ω → Prop} {related : α → α → Prop} {related' : β → β → Prop}

variable {outcome' : Except ε α}

theorem eq_of_alike (alike : Alike Eq outcome outcome') : outcome = outcome' := by
  cases alike with
  | error failure => rfl
  | ok same => rw [same]

theorem Alike.and {result : α → Prop} (alike : Alike related outcome outcome')
    (known : ∀ value, outcome = .ok value → result value) :
    Alike (fun value value' => result value ∧ related value value') outcome outcome' := by
  cases alike with
  | error failure => exact .error failure
  | ok relates => exact .ok ⟨known _ rfl, relates⟩

theorem alike_bind (outcome : Except ε α) {next next' : α → Except ε β}
    (after : ∀ value, Alike related' (next value) (next' value)) :
    Alike related' (outcome >>= next) (outcome >>= next') := by
  cases outcome with
  | error failure => exact .error failure
  | ok value => exact after value

theorem pairs_pure {value' : α} (known : related value value') :
    Pairs shows related (pure value : Traced ε ω α) (pure value') :=
  ⟨.nil, .ok known⟩

theorem pairs_fail (failure : ε) : Pairs shows related (fail failure : Traced ε ω α) (fail failure) :=
  ⟨.nil, .error failure⟩

theorem pairs_ofExcept (alike : Alike related outcome outcome') :
    Pairs shows related (ofExcept outcome : Traced ε ω α) (ofExcept outcome') :=
  ⟨.nil, alike⟩

theorem pairs_emit {event' : ω} (known : shows event event') :
    Pairs shows (fun _ _ => True) (emit event : Traced ε ω PUnit) (emit event') :=
  ⟨.cons known .nil, .ok trivial⟩

theorem pairs_detach {run run' : Traced ε ω α} (known : Pairs shows related run run') :
    Pairs shows (fun _ _ => True) (detach run : Traced ε ω PUnit) (detach run') :=
  ⟨known.1, .ok trivial⟩

theorem pairs_bind {first' : Traced ε ω α} (before : Pairs shows related first first')
    (after : ∀ value value', related value value' →
      Pairs shows related' (next value) (next' value')) :
    Pairs shows related' (first >>= next) (first' >>= next') := by
  obtain ⟨early, ends⟩ := before
  rw [bind_def, bind_def, andThen, andThen]
  generalize first.outcome = outcome at ends ⊢
  generalize first'.outcome = outcome' at ends ⊢
  cases ends with
  | error failure => exact ⟨early, .error failure⟩
  | ok known =>
    obtain ⟨late, ends⟩ := after _ _ known
    exact ⟨List.rel_append early late, ends⟩

/-- A first step that both runs have in common. -/
theorem pairs_bind_same {result : α → Prop}
    (before : Yields (fun event => shows event event) result first)
    (after : ∀ value, result value → Pairs shows related' (next value) (next' value)) :
    Pairs shows related' (first >>= next) (first >>= next') := by
  have same : Pairs shows (fun value value' => value = value' ∧ result value) first first := by
    refine ⟨List.forall₂_same.mpr before.1, ?_⟩
    cases ended : first.outcome with
    | error failure => exact .error failure
    | ok value => exact .ok ⟨rfl, before.2 value ended⟩
  refine pairs_bind same fun value value' known => ?_
  obtain ⟨rfl, known⟩ := known
  exact after value known

theorem pairs_gather {ι : Type*} {items : List ι} {branch branch' : ι → Traced ε ω α}
    (each : ∀ item ∈ items, Pairs shows related (branch item) (branch' item)) :
    Pairs shows (List.Forall₂ (Alike related)) (gather (items.map branch))
      (gather (items.map branch')) := by
  induction items with
  | nil => exact ⟨.nil, .ok .nil⟩
  | cons item items ih =>
    obtain ⟨early, ends⟩ := each item List.mem_cons_self
    obtain ⟨late, all⟩ := ih fun other member => each other (List.mem_cons_of_mem _ member)
    cases all with
    | ok all => exact ⟨List.rel_append early late, .ok (.cons ends all)⟩

end Pairs

/-! ## Marks that occur at most once -/

variable {π : Type*}

/-- If every event is permitted, then no mark occurs twice and every mark lies in the
region. -/
def Once (permitted : ω → Prop) (mark : ω → Option π) (region : π → Prop)
    (events : List ω) : Prop :=
  (∀ event ∈ events, permitted event) →
    (events.filterMap mark).Nodup ∧ ∀ place ∈ events.filterMap mark, region place

section Once

variable {permitted : ω → Prop} {mark : ω → Option π} {region region' whole : π → Prop}

theorem unmarked_pure (value : α) :
    ∀ event ∈ (pure value : Traced ε ω α).events, mark event = none :=
  fun _ member => (List.not_mem_nil member).elim

theorem unmarked_fail (failure : ε) :
    ∀ event ∈ (fail failure : Traced ε ω α).events, mark event = none :=
  fun _ member => (List.not_mem_nil member).elim

theorem unmarked_ofExcept (outcome : Except ε α) :
    ∀ event ∈ (ofExcept outcome : Traced ε ω α).events, mark event = none :=
  fun _ member => (List.not_mem_nil member).elim

theorem unmarked_emit (unmarked : mark event = none) :
    ∀ other ∈ (emit event : Traced ε ω PUnit).events, mark other = none := by
  intro other member
  rw [List.mem_singleton.mp member]
  exact unmarked

theorem unmarked_bind (before : ∀ event ∈ first.events, mark event = none)
    (after : ∀ value, ∀ event ∈ (next value).events, mark event = none) :
    ∀ event ∈ (first >>= next).events, mark event = none := by
  rw [bind_def, andThen]
  cases first.outcome with
  | error failure => exact before
  | ok value =>
    intro event member
    rcases List.mem_append.mp member with early | late
    · exact before event early
    · exact after value event late

theorem once_of_unmarked {events : List ω} (unmarked : ∀ event ∈ events, mark event = none) :
    Once permitted mark region events := by
  intro _
  have none_marked : events.filterMap mark = [] := by
    rw [List.filterMap_eq_nil_iff]
    exact unmarked
  rw [none_marked]
  exact ⟨List.nodup_nil, nofun⟩

theorem Once.widen {events : List ω} (once : Once permitted mark region events)
    (inside : ∀ place, region place → region' place) : Once permitted mark region' events :=
  fun allowed => ⟨(once allowed).1, fun place member => inside place ((once allowed).2 place member)⟩

theorem once_append {early late : List ω} (first : Once permitted mark region early)
    (second : Once permitted mark region' late)
    (apart : ∀ place, region place → region' place → False)
    (inside : ∀ place, region place → whole place)
    (inside' : ∀ place, region' place → whole place) :
    Once permitted mark whole (early ++ late) := by
  intro allowed
  obtain ⟨nodup, within⟩ := first fun event member =>
    allowed event (List.mem_append_left _ member)
  obtain ⟨nodup', within'⟩ := second fun event member =>
    allowed event (List.mem_append_right _ member)
  rw [List.filterMap_append]
  refine ⟨List.nodup_append'.mpr ⟨nodup, nodup', ?_⟩, fun place member => ?_⟩
  · intro place inEarly inLate
    exact apart place (within place inEarly) (within' place inLate)
  · rcases List.mem_append.mp member with inEarly | inLate
    · exact inside place (within place inEarly)
    · exact inside' place (within' place inLate)

theorem once_bind (before : Once permitted mark region first.events)
    (after : ∀ value, first.outcome = .ok value →
      Once permitted mark region' (next value).events)
    (apart : ∀ place, region place → region' place → False)
    (inside : ∀ place, region place → whole place)
    (inside' : ∀ place, region' place → whole place) :
    Once permitted mark whole (first >>= next).events := by
  rw [bind_def, andThen]
  cases ended : first.outcome with
  | error failure => exact before.widen inside
  | ok value => exact once_append before (after value ended) apart inside inside'

/-- A first step without marks. -/
theorem once_bind_of_unmarked (unmarked : ∀ event ∈ first.events, mark event = none)
    (after : ∀ value, first.outcome = .ok value →
      Once permitted mark region (next value).events) :
    Once permitted mark region (first >>= next).events := by
  have silent : Once permitted mark (fun _ => False) first.events := once_of_unmarked unmarked
  exact once_bind silent after (fun _ nowhere _ => nowhere) (fun _ nowhere => nowhere.elim)
    (fun _ known => known)

/-- A continuation without marks wherever it is permitted. -/
theorem once_bind_of_permitted (before : Once permitted mark region first.events)
    (unmarked : ∀ value, first.outcome = .ok value →
      (∀ event ∈ (next value).events, permitted event) →
        ∀ event ∈ (next value).events, mark event = none) :
    Once permitted mark region (first >>= next).events := by
  have silent : ∀ value, first.outcome = .ok value →
      Once permitted mark (fun _ => False) (next value).events :=
    fun value ended allowed => once_of_unmarked (unmarked value ended allowed) allowed
  exact once_bind before silent (fun _ _ nowhere => nowhere) (fun _ known => known)
    (fun _ nowhere => nowhere.elim)

/-- A continuation without marks. -/
theorem once_bind_unmarked (before : Once permitted mark region first.events)
    (unmarked : ∀ value, first.outcome = .ok value →
      ∀ event ∈ (next value).events, mark event = none) :
    Once permitted mark region (first >>= next).events :=
  once_bind_of_permitted before fun value ended _ => unmarked value ended

/-- Computations side by side with pairwise disjoint regions. -/
theorem once_gather {ι : Type*} {items : List ι} {branch : ι → Traced ε ω α}
    {regionOf : ι → π → Prop}
    (each : ∀ item ∈ items, Once permitted mark (regionOf item) (branch item).events)
    (apart : items.Pairwise fun left right =>
      ∀ place, regionOf left place → regionOf right place → False)
    (inside : ∀ item ∈ items, ∀ place, regionOf item place → whole place) :
    Once permitted mark whole (gather (items.map branch)).events := by
  have joined : Once permitted mark (fun place => ∃ item ∈ items, regionOf item place)
      (gather (items.map branch)).events := by
    clear inside
    induction items with
    | nil => exact once_of_unmarked nofun
    | cons item items ih =>
      have later := ih
        (fun other member => each other (List.mem_cons_of_mem _ member))
        (List.pairwise_cons.mp apart).2
      refine once_append (each item List.mem_cons_self) later ?_ ?_ ?_
      · rintro place here ⟨other, member, there⟩
        exact (List.pairwise_cons.mp apart).1 other member place here there
      · exact fun place here => ⟨item, List.mem_cons_self, here⟩
      · rintro place ⟨other, member, there⟩
        exact ⟨other, List.mem_cons_of_mem _ member, there⟩
  refine joined.widen ?_
  rintro place ⟨item, member, here⟩
  exact inside item member place here

end Once

end Traced

end Rs2Runtime.Data
