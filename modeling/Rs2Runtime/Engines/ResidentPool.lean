import Rs2Runtime.Data.Machine

/-!
Contract: the pool of resident runtimes of one mount, under every interleaving of its users.

Owns:
- acquisitions, with one step for each counter that is read and with the wait for a new runtime;
- completed and cancelled calls, deaths of runtimes, and the sweep of idle ones, entry by entry;
- the bounds of the pool: its size, its counters, what a sweep may take, and when it grows.

Does not own: the isolates, their jobs, or the loading of the bundle.

## What happens under the lock

Acquisitions and sweeps hold the lock from their first step to their last, also while a new runtime
is waited for.  Counters go up under the lock only, but a call that ends takes its counter down at
any time: a runtime whose counter was read as busy may be idle when the choice is made.
-/

namespace Rs2Runtime.Engines.Resident

open Data

/-! ## The pool -/

structure PoolConfig where
  maxRuntimes : Nat
  /-- Milliseconds after which an idle runtime may go; with zero there are no sweeps. -/
  idle : Nat
  positive : 1 ≤ maxRuntimes

/-- The limits that the members of a `store` block give. -/
def PoolConfig.ofMembers (maxRuntimes idleMs idleSeconds : Option Nat) : PoolConfig where
  maxRuntimes := max 1 (min (maxRuntimes.getD 4) 64)
  idle := (idleMs.or (idleSeconds.map fun seconds => min (seconds * 1000) (2 ^ 64 - 1))).getD 60000
  positive := Nat.le_max_left ..

structure PoolEntry where
  runtime : Nat
  lastUsed : Nat
  deriving DecidableEq, Repr

/-- Who has the lock, and how far they are.  `released` has the runtimes that calls let go of
since an acquisition took the lock; the code has no such list. -/
inductive Lock where
  | free
  | choosing (seen : List (Nat × Nat)) (unread : List PoolEntry) (released : List Nat)
  | spawning (released : List Nat)
  | sweeping (now : Nat) (kept unseen : List PoolEntry)
  deriving DecidableEq, Repr

structure Pool where
  entries : List PoolEntry
  /-- The counters, which are shared with the guards of calls. -/
  inflight : Nat → Nat
  alive : Nat → Bool
  /-- The reservations: the runtime of each guard that is not dropped. -/
  guards : List Nat
  /-- The runtime that would be spawned next. -/
  fresh : Nat
  clock : Nat
  lock : Lock

def Pool.empty : Pool where
  entries := []
  inflight := fun _ => 0
  alive := fun _ => true
  guards := []
  fresh := 0
  clock := 0
  lock := .free

/-! ## Steps -/

/-- The first of the least busy. -/
def minByKey : List (Nat × Nat) → Option (Nat × Nat)
  | [] => none
  | entry :: rest =>
    match minByKey rest with
    | none => some entry
    | some other => if other.2 < entry.2 then some other else some entry

/-- Take the lock for a call, and prune dead runtimes. -/
def Pool.acquire (pool : Pool) : Option Pool :=
  match pool.lock with
  | .free =>
    let live := pool.entries.filter fun entry => pool.alive entry.runtime
    some { pool with entries := live, lock := .choosing [] live [] }
  | _ => none

/-- Read the counter of the next entry. -/
def Pool.load (pool : Pool) : Option Pool :=
  match pool.lock with
  | .choosing seen (entry :: unread) released =>
    some { pool with
      lock := .choosing (seen ++ [(entry.runtime, pool.inflight entry.runtime)]) unread released }
  | _ => none

/-- Reserve a runtime of the pool. -/
def Pool.reserve (pool : Pool) (runtime : Nat) : Pool :=
  { pool with
    entries := pool.entries.map fun entry =>
      if entry.runtime = runtime then { entry with lastUsed := pool.clock } else entry
    inflight := Function.update pool.inflight runtime (pool.inflight runtime + 1)
    guards := runtime :: pool.guards
    lock := .free }

/-- Decide on what was read: the least busy runtime, or a new one. -/
def Pool.choose (config : PoolConfig) (pool : Pool) : Option Pool :=
  match pool.lock with
  | .choosing seen [] released =>
    match minByKey seen with
    | some (runtime, count) =>
      if count = 0 ∨ config.maxRuntimes ≤ pool.entries.length then some (pool.reserve runtime)
      else some { pool with lock := .spawning released }
    | none => some { pool with lock := .spawning released }
  | _ => none

/-- The new runtime is up. -/
def Pool.spawned (pool : Pool) : Option Pool :=
  match pool.lock with
  | .spawning _ =>
    some { pool with
      entries := pool.entries ++ [⟨pool.fresh, pool.clock⟩]
      inflight := Function.update pool.inflight pool.fresh 1
      guards := pool.fresh :: pool.guards
      fresh := pool.fresh + 1
      lock := .free }
  | _ => none

/-- The wait for a new runtime fails, or is cancelled. -/
def Pool.abandon (pool : Pool) : Option Pool :=
  match pool.lock with
  | .spawning _ => some { pool with lock := .free }
  | _ => none

def Lock.noting (runtime : Nat) : Lock → Lock
  | .choosing seen unread released => .choosing seen unread (runtime :: released)
  | .spawning released => .spawning (runtime :: released)
  | other => other

/-- A call is over, or cancelled: its guard is dropped. -/
def Pool.release (pool : Pool) (runtime : Nat) : Option Pool :=
  if runtime ∈ pool.guards then
    some { pool with
      inflight := Function.update pool.inflight runtime (pool.inflight runtime - 1)
      guards := pool.guards.erase runtime
      lock := pool.lock.noting runtime }
  else
    none

def Pool.die (pool : Pool) (runtime : Nat) : Option Pool :=
  if runtime < pool.fresh then
    some { pool with alive := Function.update pool.alive runtime false }
  else
    none

/-- The sweeper takes the lock, with the time at which it began to wait for it. -/
def Pool.sweep (config : PoolConfig) (pool : Pool) (now : Nat) : Option Pool :=
  match pool.lock with
  | .free =>
    if 0 < config.idle ∧ now ≤ pool.clock then
      some { pool with lock := .sweeping now [] pool.entries }
    else
      none
  | _ => none

/-- Whether a sweep keeps an entry: live, and busy or used a short while ago. -/
def Pool.keeps (config : PoolConfig) (pool : Pool) (now : Nat) (entry : PoolEntry) : Bool :=
  pool.alive entry.runtime &&
    (0 < pool.inflight entry.runtime || now - entry.lastUsed < config.idle)

/-- The sweep goes over one entry. -/
def Pool.examine (config : PoolConfig) (pool : Pool) : Option Pool :=
  match pool.lock with
  | .sweeping now kept (entry :: unseen) =>
    if pool.keeps config now entry then
      some { pool with lock := .sweeping now (kept ++ [entry]) unseen }
    else
      some { pool with entries := kept ++ unseen, lock := .sweeping now kept unseen }
  | _ => none

def Pool.endSweep (pool : Pool) : Option Pool :=
  match pool.lock with
  | .sweeping _ _ [] => some { pool with lock := .free }
  | _ => none

inductive Action where
  | acquire
  | load
  | choose
  | spawned
  | abandon
  | release (runtime : Nat)
  | die (runtime : Nat)
  | tick
  | sweep (now : Nat)
  | examine
  | endSweep
  deriving DecidableEq, Repr

def step (config : PoolConfig) (pool : Pool) : Action → Option Pool
  | .acquire => pool.acquire
  | .load => pool.load
  | .choose => pool.choose config
  | .spawned => pool.spawned
  | .abandon => pool.abandon
  | .release runtime => pool.release runtime
  | .die runtime => pool.die runtime
  | .tick => some { pool with clock := pool.clock + 1 }
  | .sweep now => pool.sweep config now
  | .examine => pool.examine config
  | .endSweep => pool.endSweep

def Action.isSweep : Action → Bool
  | .sweep _ | .examine | .endSweep => true
  | _ => false

/-! ## Bounds -/

/-- The runtimes that calls let go of since the acquisition at work took the lock. -/
def Lock.released : Lock → List Nat
  | .choosing _ _ released | .spawning released => released
  | _ => []

/-- What the pool may do in one step: a sweep takes no live runtime that has a reservation, and the
pool grows only when each of its live runtimes has one, or lost one within the acquisition.  Where
nothing is let go of within the acquisition, each has one. -/
structure StepSound (pool : Pool) (action : Action) (next : Pool) : Prop where
  swept : action.isSweep = true → ∀ entry ∈ pool.entries, entry ∉ next.entries →
    pool.alive entry.runtime = true → entry.runtime ∉ pool.guards
  grown : action = .spawned → ∀ entry ∈ pool.entries, pool.alive entry.runtime = true →
    entry.runtime ∈ pool.guards ∨ entry.runtime ∈ pool.lock.released
  grownAtOnce : action = .spawned → pool.lock.released = [] → ∀ entry ∈ pool.entries,
    pool.alive entry.runtime = true → entry.runtime ∈ pool.guards

/-- What the holder of the lock knows of the pool. -/
inductive Held (config : PoolConfig) (entries : List PoolEntry) (guards : List Nat) :
    Lock → Prop where
  | free : Held config entries guards .free
  | choosing {seen : List (Nat × Nat)} {unread : List PoolEntry} {released : List Nat}
      (read : seen.map Prod.fst ++ unread.map PoolEntry.runtime = entries.map PoolEntry.runtime)
      (busy : ∀ entry ∈ seen, 0 < entry.2 → entry.1 ∈ guards ∨ entry.1 ∈ released) :
      Held config entries guards (.choosing seen unread released)
  | spawning {released : List Nat} (room : entries.length < config.maxRuntimes)
      (busy : ∀ entry ∈ entries, entry.runtime ∈ guards ∨ entry.runtime ∈ released) :
      Held config entries guards (.spawning released)
  | sweeping {now : Nat} {kept unseen : List PoolEntry} (split : entries = kept ++ unseen) :
      Held config entries guards (.sweeping now kept unseen)

structure Sound (config : PoolConfig) (pool : Pool) : Prop where
  bounded : pool.entries.length ≤ config.maxRuntimes
  counted : ∀ runtime, pool.inflight runtime = pool.guards.count runtime
  distinct : (pool.entries.map PoolEntry.runtime).Nodup
  named : ∀ entry ∈ pool.entries, entry.runtime < pool.fresh
  known : ∀ runtime ∈ pool.guards, runtime < pool.fresh
  held : Held config pool.entries pool.guards pool.lock

variable {entries : List (Nat × Nat)}

theorem minByKey_le {least : Nat × Nat} (found : minByKey entries = some least) :
    ∀ entry ∈ entries, least.2 ≤ entry.2 := by
  induction entries generalizing least with
  | nil => cases found
  | cons first rest ih =>
    unfold minByKey at found
    cases later : minByKey rest with
    | none =>
      rw [later] at found
      cases found
      cases rest with
      | nil =>
        intro entry member
        rw [List.mem_singleton.mp member]
      | cons next rest =>
        unfold minByKey at later
        split at later
        · cases later
        · split at later <;> cases later
    | some other =>
      rw [later] at found
      dsimp only at found
      intro entry member
      rcases List.mem_cons.mp member with rfl | member
      · split at found
        next less =>
          cases found
          omega
        next =>
          cases found
          exact Nat.le_refl _
      · have bound := ih later entry member
        split at found
        next => cases found; exact bound
        next =>
          cases found
          omega

section Steps

variable {config : PoolConfig} {pool next : Pool}

theorem Sound.acquire (sound : Sound config pool) (taken : pool.acquire = some next) :
    Sound config next := by
  unfold Pool.acquire at taken
  split at taken
  · cases taken
    have fewer : (pool.entries.filter fun entry => pool.alive entry.runtime).Sublist pool.entries :=
      List.filter_sublist
    refine ⟨?_, sound.counted, ?_, ?_, sound.known, .choosing rfl ?_⟩
    · exact Nat.le_trans fewer.length_le sound.bounded
    · exact (fewer.map _).nodup sound.distinct
    · intro entry member
      exact sound.named entry (fewer.subset member)
    · intro entry member
      cases member
  · cases taken

theorem Sound.load (sound : Sound config pool) (taken : pool.load = some next) :
    Sound config next := by
  have held := sound.held
  unfold Pool.load at taken
  split at taken
  next seen entry unread released lock =>
    cases taken
    rw [lock] at held
    cases held with
    | choosing read busy =>
      refine ⟨sound.bounded, sound.counted, sound.distinct, sound.named, sound.known,
        .choosing ?_ ?_⟩
      · rw [← read, List.map_append, List.append_assoc]
        rfl
      · intro other member positive
        rcases List.mem_append.mp member with member | member
        · exact busy other member positive
        · rw [List.mem_singleton.mp member] at positive ⊢
          rw [sound.counted] at positive
          exact .inl (List.count_pos_iff.mp positive)
  next => cases taken

variable {runtime : Nat}

theorem Sound.reserve (sound : Sound config pool) (known : runtime < pool.fresh) :
    Sound config (pool.reserve runtime) := by
  have runtimes : (pool.reserve runtime).entries.map PoolEntry.runtime =
      pool.entries.map PoolEntry.runtime := by
    unfold Pool.reserve
    rw [List.map_map]
    refine List.map_congr_left fun entry _ => ?_
    simp only [Function.comp_apply]
    split <;> rfl
  refine ⟨?_, ?_, ?_, ?_, ?_, .free⟩
  · have lengths := congrArg List.length runtimes
    rw [List.length_map, List.length_map] at lengths
    rw [lengths]
    exact sound.bounded
  · intro other
    show Function.update pool.inflight runtime (pool.inflight runtime + 1) other =
      (runtime :: pool.guards).count other
    by_cases same : other = runtime
    · subst same
      rw [Function.update_self, List.count_cons_self, sound.counted]
    · rw [Function.update_of_ne same, List.count_cons_of_ne (Ne.symm same), sound.counted]
  · rw [runtimes]
    exact sound.distinct
  · intro entry member
    have among : entry.runtime ∈ (pool.reserve runtime).entries.map PoolEntry.runtime :=
      List.mem_map_of_mem member
    rw [runtimes, List.mem_map] at among
    obtain ⟨original, inside, same⟩ := among
    rw [← same]
    exact sound.named original inside
  · intro other member
    rcases List.mem_cons.mp member with rfl | member
    · exact known
    · exact sound.known other member

/-- An acquisition that wants a new runtime has seen no idle one, and there is room. -/
theorem held_spawning {seen : List (Nat × Nat)} {released : List Nat}
    (held : Held config pool.entries pool.guards (.choosing seen [] released))
    (room : pool.entries.length < config.maxRuntimes) (busy : ∀ entry ∈ seen, 0 < entry.2) :
    Held config pool.entries pool.guards (.spawning released) := by
  cases held with
  | choosing read reserved =>
    refine .spawning room fun entry member => ?_
    have among : entry.runtime ∈ seen.map Prod.fst := by
      rw [List.map_nil, List.append_nil] at read
      rw [read]
      exact List.mem_map_of_mem member
    obtain ⟨counter, inside, same⟩ := List.mem_map.mp among
    rw [← same]
    exact reserved counter inside (busy counter inside)

theorem mem_of_minByKey {least : Nat × Nat} (found : minByKey entries = some least) :
    least ∈ entries := by
  induction entries generalizing least with
  | nil => cases found
  | cons first rest ih =>
    unfold minByKey at found
    cases later : minByKey rest with
    | none =>
      rw [later] at found
      cases found
      exact List.mem_cons_self
    | some other =>
      rw [later] at found
      dsimp only at found
      split at found
      · cases found
        exact List.mem_cons_of_mem _ (ih later)
      · cases found
        exact List.mem_cons_self

theorem eq_nil_of_minByKey (none_ : minByKey entries = none) : entries = [] := by
  cases entries with
  | nil => rfl
  | cons first rest =>
    unfold minByKey at none_
    split at none_
    · cases none_
    · split at none_ <;> cases none_

theorem Sound.choose (sound : Sound config pool) (taken : pool.choose config = some next) :
    Sound config next := by
  have held := sound.held
  unfold Pool.choose at taken
  split at taken
  next seen released lock =>
    rw [lock] at held
    have read : seen.map Prod.fst = pool.entries.map PoolEntry.runtime := by
      cases held with
      | choosing read _ => simpa using read
    cases found : minByKey seen with
    | none =>
      rw [found] at taken
      cases taken
      have unseen := eq_nil_of_minByKey found
      subst unseen
      have none_ : pool.entries = [] := List.map_eq_nil_iff.mp read.symm
      refine ⟨sound.bounded, sound.counted, sound.distinct, sound.named, sound.known,
        held_spawning held ?_ ?_⟩
      · rw [none_]
        exact config.positive
      · intro entry member
        cases member
    | some least =>
      obtain ⟨runtime, count⟩ := least
      rw [found] at taken
      dsimp only at taken
      split at taken
      next =>
        cases taken
        apply sound.reserve
        have among : runtime ∈ seen.map Prod.fst := List.mem_map_of_mem (mem_of_minByKey found)
        rw [read] at among
        obtain ⟨entry, inside, rfl⟩ := List.mem_map.mp among
        exact sound.named entry inside
      next small =>
        cases taken
        have room : pool.entries.length < config.maxRuntimes := by omega
        refine ⟨sound.bounded, sound.counted, sound.distinct, sound.named, sound.known,
          held_spawning held room ?_⟩
        intro entry member
        have bound := minByKey_le found entry member
        dsimp only at bound
        omega
  next => cases taken

theorem Sound.spawned (sound : Sound config pool) (taken : pool.spawned = some next) :
    Sound config next := by
  have held := sound.held
  unfold Pool.spawned at taken
  split at taken
  next released lock =>
    cases taken
    rw [lock] at held
    cases held with
    | spawning room _ =>
      refine ⟨?_, ?_, ?_, ?_, ?_, .free⟩
      · show (pool.entries ++ [_]).length ≤ _
        rw [List.length_append]
        exact room
      · intro runtime
        show Function.update pool.inflight pool.fresh 1 runtime =
          (pool.fresh :: pool.guards).count runtime
        by_cases same : runtime = pool.fresh
        · subst same
          have unreserved : pool.guards.count pool.fresh = 0 :=
            List.count_eq_zero.mpr fun member => Nat.lt_irrefl _ (sound.known _ member)
          rw [Function.update_self, List.count_cons_self, unreserved]
        · rw [Function.update_of_ne same, List.count_cons_of_ne (Ne.symm same), sound.counted]
      · show ((pool.entries ++ [_]).map PoolEntry.runtime).Nodup
        rw [List.map_append, List.nodup_append]
        refine ⟨sound.distinct, List.nodup_singleton _, ?_⟩
        intro left first right second same
        obtain ⟨entry, inside, rfl⟩ := List.mem_map.mp first
        have own := sound.named entry inside
        rw [same, List.mem_singleton.mp second] at own
        exact Nat.lt_irrefl _ own
      · intro entry member
        rcases List.mem_append.mp member with member | member
        · exact Nat.lt_succ_of_lt (sound.named entry member)
        · rw [List.mem_singleton.mp member]
          exact Nat.lt_succ_self _
      · intro runtime member
        rcases List.mem_cons.mp member with rfl | member
        · exact Nat.lt_succ_self _
        · exact Nat.lt_succ_of_lt (sound.known runtime member)
  next => cases taken

theorem Sound.free (sound : Sound config pool) : Sound config { pool with lock := .free } :=
  ⟨sound.bounded, sound.counted, sound.distinct, sound.named, sound.known, .free⟩

theorem Sound.abandon (sound : Sound config pool) (taken : pool.abandon = some next) :
    Sound config next := by
  unfold Pool.abandon at taken
  split at taken
  · cases taken
    exact sound.free
  · cases taken

/-- A reservation that is let go of is noted, so the holder of the lock still knows of it. -/
theorem Held.release {lock : Lock} (held : Held config pool.entries pool.guards lock)
    (runtime : Nat) :
    Held config pool.entries (pool.guards.erase runtime) (lock.noting runtime) := by
  have later : ∀ {other : Nat} {released : List Nat}, other ∈ pool.guards ∨ other ∈ released →
      other ∈ pool.guards.erase runtime ∨ other ∈ runtime :: released := by
    intro other released before
    by_cases same : other = runtime
    · exact .inr (same ▸ List.mem_cons_self)
    · rcases before with reserved | noted
      · exact .inl ((List.mem_erase_of_ne same).mpr reserved)
      · exact .inr (List.mem_cons_of_mem _ noted)
  cases held with
  | free => exact .free
  | choosing read busy =>
    exact .choosing read fun entry member positive => later (busy entry member positive)
  | spawning room busy => exact .spawning room fun entry member => later (busy entry member)
  | sweeping split => exact .sweeping split

theorem Sound.release (sound : Sound config pool) (taken : pool.release runtime = some next) :
    Sound config next := by
  unfold Pool.release at taken
  split at taken
  next member =>
    cases taken
    refine ⟨sound.bounded, ?_, sound.distinct, sound.named, ?_, sound.held.release runtime⟩
    · intro other
      show Function.update pool.inflight runtime (pool.inflight runtime - 1) other =
        (pool.guards.erase runtime).count other
      by_cases same : other = runtime
      · subst same
        rw [Function.update_self, List.count_erase_self, sound.counted]
      · rw [Function.update_of_ne same, List.count_erase_of_ne same, sound.counted]
    · intro other inside
      exact sound.known other (List.mem_of_mem_erase inside)
  next => cases taken

theorem Sound.die (sound : Sound config pool) (taken : pool.die runtime = some next) :
    Sound config next := by
  unfold Pool.die at taken
  split at taken
  · cases taken
    exact ⟨sound.bounded, sound.counted, sound.distinct, sound.named, sound.known, sound.held⟩
  · cases taken

theorem Sound.sweep (sound : Sound config pool) {now : Nat}
    (taken : pool.sweep config now = some next) : Sound config next := by
  unfold Pool.sweep at taken
  split at taken
  · split at taken
    · cases taken
      exact ⟨sound.bounded, sound.counted, sound.distinct, sound.named, sound.known,
        .sweeping rfl⟩
    · cases taken
  · cases taken

/-- What a sweep does with one entry. -/
theorem examine_cases (sound : Sound config pool) (taken : pool.examine config = some next) :
    ∃ now kept entry unseen, pool.entries = kept ++ entry :: unseen ∧
      (next = { pool with lock := .sweeping now (kept ++ [entry]) unseen } ∨
        pool.keeps config now entry = false ∧
          next = { pool with entries := kept ++ unseen, lock := .sweeping now kept unseen }) := by
  have held := sound.held
  unfold Pool.examine at taken
  split at taken
  next now kept entry unseen lock =>
    rw [lock] at held
    cases held with
    | sweeping split =>
      refine ⟨now, kept, entry, unseen, split, ?_⟩
      split at taken
      · cases taken
        exact .inl rfl
      next goes =>
        cases taken
        exact .inr ⟨Bool.eq_false_iff.mpr goes, rfl⟩
  next => cases taken

theorem Sound.examine (sound : Sound config pool) (taken : pool.examine config = some next) :
    Sound config next := by
  obtain ⟨now, kept, entry, unseen, split, rfl | ⟨-, rfl⟩⟩ := examine_cases sound taken
  · refine ⟨sound.bounded, sound.counted, sound.distinct, sound.named, sound.known,
      .sweeping ?_⟩
    rw [split, List.append_assoc]
    rfl
  · have fewer : (kept ++ unseen).Sublist pool.entries := by
      rw [split]
      exact (List.Sublist.refl kept).append (List.sublist_cons_self entry unseen)
    refine ⟨?_, sound.counted, ?_, ?_, sound.known, .sweeping rfl⟩
    · exact Nat.le_trans fewer.length_le sound.bounded
    · exact (fewer.map _).nodup sound.distinct
    · intro other member
      exact sound.named other (fewer.subset member)

theorem Sound.endSweep (sound : Sound config pool) (taken : pool.endSweep = some next) :
    Sound config next := by
  unfold Pool.endSweep at taken
  split at taken
  · cases taken
    exact sound.free
  · cases taken

theorem Sound.step (sound : Sound config pool) {action : Action}
    (taken : step config pool action = some next) : Sound config next := by
  cases action with
  | acquire => exact sound.acquire taken
  | load => exact sound.load taken
  | choose => exact sound.choose taken
  | spawned => exact sound.spawned taken
  | abandon => exact sound.abandon taken
  | release runtime => exact sound.release taken
  | die runtime => exact sound.die taken
  | tick =>
    cases taken
    exact ⟨sound.bounded, sound.counted, sound.distinct, sound.named, sound.known, sound.held⟩
  | sweep now => exact sound.sweep taken
  | examine => exact sound.examine taken
  | endSweep => exact sound.endSweep taken

/-- A sweep takes an entry away only where it sees it dead, or idle. -/
theorem spared_by_sweep (sound : Sound config pool) {action : Action}
    (sweeps : action.isSweep = true) (taken : Resident.step config pool action = some next)
    {entry : PoolEntry} (member : entry ∈ pool.entries) (gone : entry ∉ next.entries)
    (live : pool.alive entry.runtime = true) : entry.runtime ∉ pool.guards := by
  have kept : next.entries = pool.entries → entry.runtime ∉ pool.guards := by
    intro same
    rw [same] at gone
    exact absurd member gone
  cases action with
  | sweep now =>
    apply kept
    unfold Resident.step Pool.sweep at taken
    dsimp only at taken
    split at taken
    · split at taken
      · cases taken
        rfl
      · cases taken
    · cases taken
  | endSweep =>
    apply kept
    unfold Resident.step Pool.endSweep at taken
    dsimp only at taken
    split at taken
    · cases taken
      rfl
    · cases taken
  | examine =>
    obtain ⟨now, before, other, after, split, rfl | ⟨goes, rfl⟩⟩ := examine_cases sound taken
    · exact kept rfl
    · have taken_ : entry = other := by
        rw [split, List.mem_append, List.mem_cons] at member
        rcases member with inside | same | inside
        · exact absurd (List.mem_append_left _ inside) gone
        · exact same
        · exact absurd (List.mem_append_right _ inside) gone
      subst taken_
      intro reserved
      have busy : 0 < pool.inflight entry.runtime := by
        rw [sound.counted]
        exact List.count_pos_iff.mpr reserved
      unfold Pool.keeps at goes
      rw [live, decide_eq_true busy] at goes
      cases goes
  | _ => cases sweeps

theorem busy_when_grown (sound : Sound config pool) (taken : pool.spawned = some next)
    {entry : PoolEntry} (member : entry ∈ pool.entries) :
    entry.runtime ∈ pool.guards ∨ entry.runtime ∈ pool.lock.released := by
  have held := sound.held
  unfold Pool.spawned at taken
  split at taken
  next released lock =>
    rw [lock] at held ⊢
    cases held with
    | spawning _ busy => exact busy entry member
  next => cases taken

end Steps

theorem sound_empty (config : PoolConfig) : Sound config Pool.empty where
  bounded := Nat.zero_le _
  counted := fun _ => rfl
  distinct := List.nodup_nil
  named := List.forall_mem_nil _
  known := List.forall_mem_nil _
  held := .free

theorem sound_run {config : PoolConfig} {actions : List Action} {pool : Pool}
    (ran : Machine.run (step config) Pool.empty actions = some pool) : Sound config pool := by
  have preserved : ∀ state action next, Sound config state → True →
      step config state action = some next → Sound config next := by
    intro state action next sound _ taken
    exact sound.step taken
  exact Machine.run_invariant preserved (sound_empty config)
    (Machine.allMeet_of_forall (fun _ _ => trivial) _ _) ran

/-- The bounds of the pool hold along every run. -/
theorem resident_pool_keeps_its_bounds {config : PoolConfig} {actions : List Action} {pool : Pool}
    (ran : Machine.run (step config) Pool.empty actions = some pool) :
    pool.entries.length ≤ config.maxRuntimes ∧
      (∀ runtime, pool.inflight runtime = pool.guards.count runtime) ∧
      ∀ action next, step config pool action = some next → StepSound pool action next := by
  have sound := sound_run ran
  refine ⟨sound.bounded, sound.counted, fun action next taken => ⟨?_, ?_, ?_⟩⟩
  · intro sweeps entry member gone live
    exact spared_by_sweep sound sweeps taken member gone live
  · intro grows entry member _
    subst grows
    exact busy_when_grown sound taken member
  · intro grows atOnce entry member _
    subst grows
    rcases busy_when_grown sound taken member with reserved | released
    · exact reserved
    · rw [atOnce] at released
      cases released

/-- Two runtimes at most, and two calls: the second finds the first's runtime busy and waits for
another one. -/
def secondSpawn : List Action :=
  [.acquire, .choose, .spawned, .acquire, .load, .choose]

def twoRuntimes : PoolConfig :=
  .ofMembers (some 2) none none

theorem second_runtime_is_spawned_beside_a_busy_one :
    ∃ pool, Machine.run (step twoRuntimes) Pool.empty secondSpawn = some pool ∧
      pool.guards = [0] ∧ ∀ next, step twoRuntimes pool .spawned = some next →
        StepSound pool .spawned next := by
  refine ⟨_, rfl, rfl, fun next taken => ?_⟩
  exact (@resident_pool_keeps_its_bounds twoRuntimes secondSpawn _ rfl).2.2 _ next taken

/-- The first call ends while the second one waits: the pool grows beside an idle runtime. -/
theorem pool_grows_beside_an_idle_runtime :
    ∃ pool next, Machine.run (step twoRuntimes) Pool.empty (secondSpawn ++ [.release 0]) =
        some pool ∧
      step twoRuntimes pool .spawned = some next ∧
      ∃ entry ∈ pool.entries, pool.alive entry.runtime = true ∧ entry.runtime ∉ pool.guards := by
  refine ⟨_, _, rfl, rfl, ⟨0, 0⟩, ?_⟩
  decide

end Rs2Runtime.Engines.Resident
