import Rs2Runtime.Data.Expiring
import Rs2Runtime.Data.Machine
import Rs2Runtime.Scheduler.Entries

/-!
Contract: nodes that poll the same schedules and share one store of claims.

Owns:
- the in-memory store of claims, and how long a claim is remembered;
- the scheduler loop of every node, interleaved with the others at its awaits, and with the clock;
- when no occurrence is fired twice.

Does not own: the ticks that a fire dispatches, or nodes whose configurations differ.

## Why the time of a claim matters

A claim is remembered for a while after it was made, not for as long as some node may still have
the occurrence ahead of its cursor.  A node that is late by more than that wins the claim again.
-/

namespace Rs2Runtime.Scheduler

open Text Data

/-! ## Claims -/

/-- When each claimed occurrence is forgotten, in nanoseconds. -/
abbrev MemScheduleStore := Expiring Str

/-- The entry of an occurrence in the store. -/
def composite (key : Str) (occurrenceMs : Int) : Str :=
  key ++ (":" : Str) ++ intStr occurrenceMs

/-- Claim the right to fire an occurrence; true if this caller won. -/
def MemScheduleStore.claim (store : MemScheduleStore) (key : Str) (occurrenceMs : Int)
    (ttl now : Nat) : Bool × MemScheduleStore :=
  Expiring.claim store (composite key occurrenceMs) now ttl

def secondNs : Nat :=
  1000000000

/-- How long a claim is remembered: a couple of periods, at least a minute. -/
def Schedule.claimTtl : Schedule → Nat
  | .interval everyMs => max (everyMs * 1000000 * 2) (60 * secondNs)
  | .cron _ => 120 * secondNs

/-! ## Nodes -/

/-- A scheduled mount: its tenant, and its base path. -/
abbrev MountKey := Str × Str

/-- The key of a mount's claims. -/
def MountKey.claimKey (key : MountKey) : Str :=
  key.1 ++ ("|" : Str) ++ key.2

/-- Where the loop of a node is. -/
inductive Stage where
  /-- Asleep, or about to reconcile. -/
  | idle
  /-- At the next entry, with the clocks read at the start of the pass. -/
  | examining (now : Poll) (rest : List MountKey)
  /-- Awaiting the answer to a claim. -/
  | claiming (now : Poll) (rest : List MountKey) (key : MountKey) (occurrence : Int) (ttl : Nat)
  deriving DecidableEq

/-- A claim that is awaited is still within its time to live of the occurrence. -/
def Stage.InTime (clock : Nat) : Stage → Prop
  | .claiming _ _ _ occurrence ttl => (clock : Int) < occurrence * 1000000 + ttl
  | _ => True

instance Stage.decidableInTime (clock : Nat) : ∀ stage, Decidable (Stage.InTime clock stage)
  | .claiming _ _ _ _ _ => inferInstanceAs (Decidable (_ < _))
  | .idle => isTrue trivial
  | .examining _ _ => isTrue trivial

/-- The loop of one node. -/
structure Node where
  desired : Table MountKey SchedEntry
  inFlight : List MountKey
  stage : Stage

def Node.fresh : Node :=
  ⟨Table.empty, [], .idle⟩

/-- Derive a tenant's entries again, from the bases of its configuration. -/
def Node.reconcile (schedules : MountKey → Option Schedule) (node : Node) (tenant : Str)
    (bases : List Str) (now : Poll) : Node :=
  { node with
    desired := bases.foldl
      (fun desired base =>
        match (schedules (tenant, base)).bind fun schedule => SchedEntry.create schedule now with
        | some entry => desired.put (tenant, base) entry
        | none => desired)
      (node.desired.retain fun key _ => key.1 ≠ tenant) }

/-- Drop the entries of tenants that are not watched any more. -/
def Node.unwatch (node : Node) (watched : List Str) : Node :=
  { node with desired := node.desired.retain fun key _ => key.1 ∈ watched }

/-- The next entry of a pass, up to its claim if an occurrence is due. -/
def Node.examine (node : Node) (now : Poll) (key : MountKey) (rest : List MountKey) : Node :=
  match node.desired.find key with
  | none => { node with stage := .examining now rest }
  | some entry =>
    let due := entry.dueOccurrence now
    let advanced := { node with desired := node.desired.put key due.2 }
    match due.1 with
    | none => { advanced with stage := .examining now rest }
    | some occurrence =>
      -- the overlap guard: the previous fire of the mount is still running
      if key ∈ node.inFlight then
        { advanced with stage := .examining now rest }
      else
        { advanced with
          inFlight := key :: node.inFlight
          stage := .claiming now rest key occurrence entry.schedule.claimTtl }

/-- The marker of a mount goes when its fire is over, or was not won. -/
def Node.land (node : Node) (key : MountKey) : Node :=
  { node with inFlight := node.inFlight.filter (· ≠ key) }

/-! ## Clusters -/

/-- A fire: its node, the mount and the occurrence. -/
structure ClusterFire (ι : Type) where
  node : ι
  key : MountKey
  occurrence : Int
  deriving DecidableEq

/-- Nodes with a shared store, and what was fired so far. -/
structure Cluster (ι : Type) where
  nodes : ι → Node
  store : MemScheduleStore
  clock : Nat
  fires : List (ClusterFire ι)

/-- One step of a cluster. -/
inductive Action (ι : Type) where
  | elapse (duration : Nat)
  | reconcile (node : ι) (tenant : Str) (bases : List Str) (instant : Nat)
  | unwatch (node : ι) (watched : List Str)
  /-- A pass starts, over the entries in some order. -/
  | wake (node : ι) (instant : Nat) (order : List MountKey)
  | examine (node : ι)
  | claim (node : ι)
  /-- A fire of the node is over. -/
  | complete (node : ι) (key : MountKey)

namespace Cluster

variable {ι : Type} [DecidableEq ι]

def initial (clock : Nat) : Cluster ι :=
  ⟨fun _ => Node.fresh, Table.empty, clock, []⟩

def setNode (cluster : Cluster ι) (name : ι) (node : Node) : Cluster ι :=
  { cluster with nodes := Function.update cluster.nodes name node }

/-- What the answer to a claim does. -/
def claim (cluster : Cluster ι) (name : ι) (now : Poll) (rest : List MountKey) (key : MountKey)
    (occurrence : Int) (ttl : Nat) : Cluster ι :=
  let answer := cluster.store.claim key.claimKey occurrence ttl cluster.clock
  let node := cluster.nodes name
  if answer.1 then
    { cluster.setNode name { node with stage := .examining now rest } with
      store := answer.2
      fires := cluster.fires ++ [⟨name, key, occurrence⟩] }
  else
    { cluster.setNode name { node.land key with stage := .examining now rest } with
      store := answer.2 }

/-- The step of an action; none if the loop of its node is elsewhere. -/
def step (schedules : MountKey → Option Schedule) (cluster : Cluster ι) :
    Action ι → Option (Cluster ι)
  | .elapse duration => some { cluster with clock := cluster.clock + duration }
  | .reconcile name tenant bases instant =>
    let node := cluster.nodes name
    if node.stage = .idle then
      some (cluster.setNode name
        (node.reconcile schedules tenant bases ⟨instant, cluster.clock⟩))
    else
      none
  | .unwatch name watched =>
    let node := cluster.nodes name
    if node.stage = .idle then some (cluster.setNode name (node.unwatch watched)) else none
  | .wake name instant order =>
    let node := cluster.nodes name
    if node.stage = .idle ∧ order.Perm (node.desired.rows.map Prod.fst) then
      some (cluster.setNode name
        { node with stage := .examining ⟨instant, cluster.clock⟩ order })
    else
      none
  | .examine name =>
    let node := cluster.nodes name
    match node.stage with
    | .examining _ [] => some (cluster.setNode name { node with stage := .idle })
    | .examining now (key :: rest) => some (cluster.setNode name (node.examine now key rest))
    | _ => none
  | .claim name =>
    match (cluster.nodes name).stage with
    | .claiming now rest key occurrence ttl =>
      some (cluster.claim name now rest key occurrence ttl)
    | _ => none
  | .complete name key => some (cluster.setNode name ((cluster.nodes name).land key))

/-- A claim is made before it could have been forgotten: within its time to live of the
occurrence. -/
def InTime (cluster : Cluster ι) : Action ι → Prop
  | .claim name => (cluster.nodes name).stage.InTime cluster.clock
  | _ => True

instance decidableInTime (cluster : Cluster ι) : ∀ action, Decidable (cluster.InTime action)
  | .claim _ => inferInstanceAs (Decidable (Stage.InTime _ _))
  | .elapse _ => isTrue trivial
  | .reconcile _ _ _ _ => isTrue trivial
  | .unwatch _ _ => isTrue trivial
  | .wake _ _ _ => isTrue trivial
  | .examine _ => isTrue trivial
  | .complete _ _ => isTrue trivial

/-- What was fired, whichever node did. -/
def fired (cluster : Cluster ι) : List (MountKey × Int) :=
  cluster.fires.map fun fire => (fire.key, fire.occurrence)

end Cluster

/-! ## Occurrences that are due -/

variable {schedules : MountKey → Option Schedule}

/-- An entry keeps its schedule. -/
theorem dueOccurrence_schedule (entry : SchedEntry) (now : Poll) :
    (entry.dueOccurrence now).2.schedule = entry.schedule := by
  unfold SchedEntry.dueOccurrence
  split
  · split <;> rfl
  · split <;> rfl
  · rfl

variable {now : Poll} {entry : SchedEntry}

theorem create_schedule {schedule : Schedule}
    (created : SchedEntry.create schedule now = some entry) : entry.schedule = schedule := by
  cases schedule with
  | interval everyMs =>
    cases created
    rfl
  | cron cron =>
    unfold SchedEntry.create at created
    obtain ⟨nextDue, -, isEntry⟩ := Option.map_eq_some_iff.mp created
    rw [← isEntry]

/-- A bucket starts before the time it holds. -/
theorem intervalBucketMs_le (nowMs : Int) (everyMs : Nat) :
    intervalBucketMs nowMs everyMs ≤ nowMs := by
  unfold intervalBucketMs
  apply Int.ediv_mul_le
  omega

/-- What is due has begun. -/
theorem dueOccurrence_le {occurrence : Int} (due : (entry.dueOccurrence now).1 = some occurrence) :
    occurrence * 1000000 ≤ now.wall := by
  unfold SchedEntry.dueOccurrence at due
  split at due
  next everyMs lastFired _ _ =>
    split at due
    · cases due
      have bucket := intervalBucketMs_le ((now.wall / 1000000 : Nat) : Int) everyMs
      omega
    · cases due
  · split at due
    · cases due
      omega
    · cases due
  · cases due

/-! ## One node -/

/-- A stage with clocks that were read, and a claim for an occurrence that has begun. -/
def Stage.Sound (schedules : MountKey → Option Schedule) (clock : Nat) : Stage → Prop
  | .idle => True
  | .examining now _ => now.wall ≤ clock
  | .claiming now _ key occurrence ttl =>
    now.wall ≤ clock ∧ occurrence * 1000000 ≤ clock ∧
      ∃ schedule, schedules key = some schedule ∧ ttl = schedule.claimTtl

/-- A node whose entries are of the given schedules. -/
structure Node.Sound (schedules : MountKey → Option Schedule) (clock : Nat) (node : Node) :
    Prop where
  armed : ∀ key entry, node.desired.find key = some entry → schedules key = some entry.schedule
  stage : node.stage.Sound schedules clock

theorem Stage.Sound.mono {stage : Stage} {clock later : Nat} (sound : stage.Sound schedules clock)
    (elapsed : clock ≤ later) : stage.Sound schedules later := by
  cases stage with
  | idle => trivial
  | examining now rest => exact le_trans sound elapsed
  | claiming now rest key occurrence ttl =>
    obtain ⟨read, begun, ownTtl⟩ := sound
    exact ⟨read.trans elapsed, by omega, ownTtl⟩

namespace Node.Sound

variable {clock : Nat} {node : Node}

theorem fresh : Node.fresh.Sound schedules clock :=
  ⟨fun key entry found => (by cases found), trivial⟩

theorem retain (sound : node.Sound schedules clock) (keep : MountKey → SchedEntry → Bool) :
    Node.Sound schedules clock { node with desired := node.desired.retain keep } := by
  refine ⟨fun key entry found => sound.armed key entry ?_, sound.stage⟩
  rw [Table.find_retain, Option.filter_eq_some_iff] at found
  exact found.1

theorem put (sound : node.Sound schedules clock) {key : MountKey}
    (own : schedules key = some entry.schedule) :
    Node.Sound schedules clock { node with desired := node.desired.put key entry } := by
  refine ⟨fun other found isFound => ?_, sound.stage⟩
  rw [Table.find_put] at isFound
  split at isFound
  next same =>
    cases isFound
    rw [same, own]
  next => exact sound.armed other found isFound

theorem reconcile (sound : node.Sound schedules clock) (tenant : Str) (bases : List Str)
    (now : Poll) : (node.reconcile schedules tenant bases now).Sound schedules clock := by
  have start := sound.retain fun key _ => key.1 ≠ tenant
  unfold Node.reconcile
  generalize (node.desired.retain fun key _ => key.1 ≠ tenant) = desired at start ⊢
  induction bases generalizing desired with
  | nil => exact start
  | cons base bases ih =>
    rw [List.foldl_cons]
    apply ih
    split
    next entry created =>
      obtain ⟨schedule, isSchedule, isEntry⟩ := Option.bind_eq_some_iff.mp created
      exact start.put ((create_schedule isEntry).symm ▸ isSchedule)
    next => exact start

theorem examine (sound : node.Sound schedules clock) (read : now.wall ≤ clock) (key : MountKey)
    (rest : List MountKey) :
    (node.examine now key rest).Sound schedules clock := by
  unfold Node.examine
  cases found : node.desired.find key with
  | none => exact ⟨sound.armed, read⟩
  | some entry =>
    have own := sound.armed key entry found
    have advanced := sound.put ((dueOccurrence_schedule entry now).symm ▸ own)
    dsimp only
    cases due : (entry.dueOccurrence now).1 with
    | none => exact ⟨advanced.armed, read⟩
    | some occurrence =>
      dsimp only
      have begun := dueOccurrence_le due
      split
      · exact ⟨advanced.armed, read⟩
      · exact ⟨advanced.armed, read, by omega, entry.schedule, own, rfl⟩

end Node.Sound

/-! ## Every cluster -/

/-- Sound nodes, and claims in the store for what was fired, as long as they are to be
remembered. -/
structure Cluster.Sound {ι : Type} (schedules : MountKey → Option Schedule)
    (cluster : Cluster ι) : Prop where
  nodes : ∀ name, (cluster.nodes name).Sound schedules cluster.clock
  held : ∀ fire ∈ cluster.fires, ∃ schedule until_, schedules fire.key = some schedule ∧
    fire.occurrence * 1000000 + schedule.claimTtl ≤ (until_ : Nat) ∧
    (cluster.clock < until_ →
      Expiring.Holds cluster.store (composite fire.key.claimKey fire.occurrence) until_)
  once : cluster.fired.Nodup

namespace Cluster.Sound

variable {ι : Type} [DecidableEq ι] {cluster : Cluster ι}

omit [DecidableEq ι] in
theorem initial (clock : Nat) : (Cluster.initial clock : Cluster ι).Sound schedules :=
  ⟨fun _ => .fresh, fun fire member => (by cases member), List.nodup_nil⟩

/-- A step of one node that claims nothing. -/
theorem setNode (sound : cluster.Sound schedules) (name : ι) {node : Node}
    (nodeSound : node.Sound schedules cluster.clock) :
    (cluster.setNode name node).Sound schedules := by
  refine ⟨fun other => ?_, sound.held, sound.once⟩
  show (Function.update cluster.nodes name node other).Sound schedules cluster.clock
  by_cases same : other = name
  · rw [same, Function.update_self]
    exact nodeSound
  · rw [Function.update_of_ne same]
    exact sound.nodes other

omit [DecidableEq ι] in
theorem elapse (sound : cluster.Sound schedules) (duration : Nat) :
    Cluster.Sound schedules { cluster with clock := cluster.clock + duration } where
  nodes := fun name =>
    ⟨(sound.nodes name).armed, (sound.nodes name).stage.mono (Nat.le_add_right _ _)⟩
  held := by
    intro fire member
    obtain ⟨schedule, until_, own, longer, holds⟩ := sound.held fire member
    exact ⟨schedule, until_, own, longer, fun early =>
      holds (lt_of_le_of_lt (Nat.le_add_right _ _) early)⟩
  once := sound.once

/-- A claim in time is lost for what was fired before. -/
theorem claim (sound : cluster.Sound schedules) {name : ι} {rest : List MountKey} {key : MountKey}
    {occurrence : Int} {ttl : Nat}
    (stage : (cluster.nodes name).stage = .claiming now rest key occurrence ttl)
    (inTime : (cluster.clock : Int) < occurrence * 1000000 + ttl) :
    (cluster.claim name now rest key occurrence ttl).Sound schedules := by
  have nodeSound := sound.nodes name
  have stageSound := nodeSound.stage
  rw [stage] at stageSound
  obtain ⟨read, begun, schedule, own, rfl⟩ := stageSound
  unfold Cluster.claim
  dsimp only
  generalize claimed : cluster.store.claim key.claimKey occurrence schedule.claimTtl cluster.clock =
    answer
  -- what was held for longer still is
  have held : ∀ fire ∈ cluster.fires, ∃ schedule until_, schedules fire.key = some schedule ∧
      fire.occurrence * 1000000 + schedule.claimTtl ≤ (until_ : Nat) ∧
      (cluster.clock < until_ →
        Expiring.Holds answer.2 (composite fire.key.claimKey fire.occurrence) until_) := by
    intro fire member
    obtain ⟨fireSchedule, until_, fireOwn, longer, holds⟩ := sound.held fire member
    refine ⟨fireSchedule, until_, fireOwn, longer, fun early => ?_⟩
    rw [← claimed]
    exact (holds early).claim early _ _
  cases won : answer.1 with
  | false =>
    rw [if_neg Bool.false_ne_true]
    have landed : Node.Sound schedules cluster.clock
        { (cluster.nodes name).land key with stage := .examining now rest } :=
      ⟨nodeSound.armed, read⟩
    have others := sound.setNode name landed
    exact ⟨others.nodes, held, sound.once⟩
  | true =>
    rw [if_pos rfl]
    have going : Node.Sound schedules cluster.clock
        { cluster.nodes name with stage := .examining now rest } :=
      ⟨nodeSound.armed, read⟩
    have others := sound.setNode name going
    refine ⟨others.nodes, fun fire member => ?_, ?_⟩
    · rcases List.mem_append.mp member with earlier | last
      · exact held fire earlier
      · obtain rfl := List.mem_singleton.mp last
        have longer : occurrence * 1000000 + schedule.claimTtl ≤
            (cluster.clock + schedule.claimTtl : Nat) := by omega
        refine ⟨schedule, cluster.clock + schedule.claimTtl, own, longer, fun _ => ?_⟩
        show Expiring.Holds answer.2 (composite key.claimKey occurrence) _
        rw [← claimed] at won ⊢
        exact Expiring.holds_of_claim_won won
    · show ((cluster.fires ++ [(⟨name, key, occurrence⟩ : ClusterFire ι)]).map
        fun fire => (fire.key, fire.occurrence)).Nodup
      rw [List.map_append, List.map_singleton]
      refine List.nodup_append.mpr ⟨sound.once, List.nodup_singleton _, ?_⟩
      rintro _ earlier _ last rfl
      obtain ⟨fire, member, same⟩ := List.mem_map.mp earlier
      rw [List.mem_singleton] at last
      obtain ⟨sameKey, sameOccurrence⟩ : fire.key = key ∧ fire.occurrence = occurrence :=
        Prod.mk.inj (same.trans last)
      obtain ⟨fireSchedule, until_, fireOwn, longer, holds⟩ := sound.held fire member
      rw [sameKey, own] at fireOwn
      cases fireOwn
      rw [sameOccurrence] at longer
      have early : cluster.clock < until_ := by omega
      have lost := (holds early).claim_lost early schedule.claimTtl
      rw [sameKey, sameOccurrence] at lost
      rw [← claimed] at won
      exact Bool.false_ne_true (lost.symm.trans won)

/-- Every step in time keeps a cluster sound. -/
theorem step (sound : cluster.Sound schedules) {action : Action ι}
    (inTime : cluster.InTime action) {next : Cluster ι}
    (stepped : cluster.step schedules action = some next) : next.Sound schedules := by
  cases action with
  | elapse duration =>
    cases stepped
    exact sound.elapse duration
  | reconcile name tenant bases instant =>
    simp only [Cluster.step, Option.ite_none_right_eq_some, Option.some.injEq] at stepped
    obtain ⟨-, rfl⟩ := stepped
    exact sound.setNode name ((sound.nodes name).reconcile tenant bases _)
  | unwatch name watched =>
    simp only [Cluster.step, Option.ite_none_right_eq_some, Option.some.injEq] at stepped
    obtain ⟨-, rfl⟩ := stepped
    exact sound.setNode name ((sound.nodes name).retain _)
  | wake name instant order =>
    simp only [Cluster.step, Option.ite_none_right_eq_some, Option.some.injEq] at stepped
    obtain ⟨-, rfl⟩ := stepped
    exact sound.setNode name ⟨(sound.nodes name).armed, le_refl _⟩
  | examine name =>
    have nodeSound := sound.nodes name
    have stageSound := nodeSound.stage
    cases stage : (cluster.nodes name).stage with
    | idle => simp [Cluster.step, stage] at stepped
    | claiming now rest key occurrence ttl => simp [Cluster.step, stage] at stepped
    | examining now rest =>
      rw [stage] at stageSound
      cases rest with
      | nil =>
        simp only [Cluster.step, stage, Option.some.injEq] at stepped
        subst stepped
        exact sound.setNode name ⟨nodeSound.armed, trivial⟩
      | cons key rest =>
        simp only [Cluster.step, stage, Option.some.injEq] at stepped
        subst stepped
        exact sound.setNode name (nodeSound.examine stageSound key rest)
  | claim name =>
    cases stage : (cluster.nodes name).stage with
    | idle => simp [Cluster.step, stage] at stepped
    | examining now rest => simp [Cluster.step, stage] at stepped
    | claiming now rest key occurrence ttl =>
      simp only [Cluster.step, stage, Option.some.injEq] at stepped
      simp only [Cluster.InTime, Stage.InTime, stage] at inTime
      subst stepped
      exact sound.claim stage inTime
  | complete name key =>
    cases stepped
    exact sound.setNode name ⟨(sound.nodes name).armed, (sound.nodes name).stage⟩

end Cluster.Sound

/-- For every number of nodes, all schedules and every run, with any order and delay of polls and
claims: if every claim is made within its time to live of the occurrence, no cron occurrence and no
interval bucket of a mount is fired twice. -/
theorem cluster_fires_each_occurrence_once {ι : Type} [DecidableEq ι]
    (schedules : MountKey → Option Schedule) (clock : Nat) (actions : List (Action ι))
    (inTime : Machine.AllMeet (Cluster.step schedules) Cluster.InTime (Cluster.initial clock)
      actions)
    (final : Cluster ι)
    (executed : Machine.run (Cluster.step schedules) (Cluster.initial clock) actions =
      some final) :
    final.fired.Nodup := by
  have sound : final.Sound schedules :=
    Machine.run_invariant (fun _ _ _ sound met stepped => sound.step met stepped)
      (Cluster.Sound.initial clock) inTime executed
  exact sound.once

/-! Two nodes that poll every minute, in time and late. -/

/-- The mount `/jobs` of a tenant, every minute. -/
def jobsKey : MountKey :=
  ("t", "/jobs")

def jobsSchedules (key : MountKey) : Option Schedule :=
  if key = jobsKey then some (.cron everyMinute) else none

/-- A node's pass over its one entry, up to the claim. -/
def passUpToClaim (name : Bool) : List (Action Bool) :=
  [.wake name 0 [jobsKey], .examine name, .claim name]

/-- Both nodes derive their entries at the epoch and one polls after a minute, the other after a
further delay. -/
def delayedRun (delay : Nat) : List (Action Bool) :=
  [.reconcile true "t" ["/jobs"] 0, .reconcile false "t" ["/jobs"] 0, .elapse minuteNs] ++
    passUpToClaim true ++ [.elapse delay] ++ passUpToClaim false

/-- What a run of two nodes fires. -/
def firedBy (actions : List (Action Bool)) : Option (List (MountKey × Int)) :=
  (Machine.run (Cluster.step jobsSchedules) (Cluster.initial 0) actions).map Cluster.fired

theorem second_node_loses_in_time :
    ∃ final : Cluster Bool,
      Machine.run (Cluster.step jobsSchedules) (Cluster.initial 0) (delayedRun secondNs) =
        some final ∧ final.fired.Nodup ∧ final.fired = [(jobsKey, 60000)] := by
  have fires : firedBy (delayedRun secondNs) = some [(jobsKey, 60000)] := by decide +kernel
  obtain ⟨final, executed, isFired⟩ := Option.map_eq_some_iff.mp fires
  refine ⟨final, executed, ?_, isFired⟩
  exact cluster_fires_each_occurrence_once jobsSchedules 0 (delayedRun secondNs)
    (by decide +kernel) final executed

/-- A node that is two minutes late fires the minute that the other has fired. -/
theorem late_node_fires_again :
    ∃ final : Cluster Bool,
      Machine.run (Cluster.step jobsSchedules) (Cluster.initial 0)
        (delayedRun (2 * minuteNs)) = some final ∧ ¬ final.fired.Nodup := by
  have fires : firedBy (delayedRun (2 * minuteNs)) = some [(jobsKey, 60000), (jobsKey, 60000)] := by
    decide +kernel
  obtain ⟨final, executed, isFired⟩ := Option.map_eq_some_iff.mp fires
  refine ⟨final, executed, ?_⟩
  rw [isFired]
  decide

end Rs2Runtime.Scheduler
