import Rs2Runtime.Data.Machine

/-!
Contract: lazy tenant loads and configuration puts for one tenant, interleaved at every
await.

Owns:
- the shared state: the saved configuration, the built tenant, the table of build guards
  and the guards held;
- the program of a tenant load and of a configuration put, one step per await;
- the version every later dispatch is owed, and the condition under which it is served.
-/

namespace Rs2Runtime.Runtime.Reload

open Data.Machine

/-- What loads and puts of one tenant share.  Configurations are named by the number of the
put that saved them. -/
structure Shared where
  /-- The configuration saved last. -/
  version : Nat
  /-- The built tenant, by the configuration it was built from. -/
  tenant : Option Nat
  /-- The entry of the guard table. -/
  guardEntry : Option Nat
  /-- The name of the next guard to be made. -/
  nextGuard : Nat
  /-- The guards that are locked. -/
  locked : List Nat
  /-- The greatest version a put has returned. -/
  returned : Nat
  deriving DecidableEq, Repr

/-- Where a load or a put stands: each constructor is the step before the named await. -/
inductive Pc where
  /-- A load looks the tenant up. -/
  | readTenant
  /-- It takes the guard of the tenant from the table, or makes one. -/
  | takeGuard
  /-- It locks the guard. -/
  | lockGuard (guard : Nat)
  /-- It looks the tenant up again. -/
  | recheck (guard : Nat)
  /-- It reads the saved configuration and builds the tenant. -/
  | readConfig (guard : Nat)
  /-- It stores the built tenant. -/
  | insertTenant (guard version : Nat)
  /-- It drops the table entry and unlocks the guard. -/
  | release (guard : Nat) (outcome : Option Nat)
  /-- The dispatch is served by a tenant built from this configuration. -/
  | served (version : Nat)
  /-- The load failed. -/
  | failed
  /-- A put, validated, saves its configuration. -/
  | save
  /-- It drops the built tenant and returns its version. -/
  | purge (version : Nat)
  /-- The put has returned this version. -/
  | returned (version : Nat)
  /-- The put was refused. -/
  | rejected
  deriving DecidableEq, Repr

/-- A load or a put in progress, with the version that had been returned when it started. -/
structure Process where
  floor : Nat
  pc : Pc
  deriving DecidableEq, Repr

/-- The whole system. -/
structure State where
  shared : Shared
  processes : List Process
  deriving DecidableEq, Repr

/-- A request or a put arrives, or a process takes its next step; `fails` picks the failing
outcome of a step that can fail. -/
inductive Act where
  | dispatch
  | putConfig
  | advance (process : Nat) (fails : Bool)
  deriving DecidableEq, Repr

/-- One step of a process: its effect and where it stands afterwards. -/
def Pc.next (shared : Shared) (fails : Bool) : Pc → Option (Shared × Pc)
  | .readTenant =>
    match shared.tenant with
    | some version => some (shared, .served version)
    | none => some (shared, .takeGuard)
  | .takeGuard =>
    match shared.guardEntry with
    | some guard => some (shared, .lockGuard guard)
    | none =>
      some ({ shared with
        guardEntry := some shared.nextGuard
        nextGuard := shared.nextGuard + 1 }, .lockGuard shared.nextGuard)
  | .lockGuard guard =>
    if guard ∈ shared.locked then
      none
    else
      some ({ shared with locked := guard :: shared.locked }, .recheck guard)
  | .recheck guard =>
    match shared.tenant with
    | some version => some (shared, .release guard (some version))
    | none => some (shared, .readConfig guard)
  | .readConfig guard =>
    if fails then
      some (shared, .release guard none)
    else
      some (shared, .insertTenant guard shared.version)
  | .insertTenant guard version =>
    some ({ shared with tenant := some version }, .release guard (some version))
  | .release guard outcome =>
    some ({ shared with
        guardEntry := none
        locked := shared.locked.erase guard },
      match outcome with
      | some version => .served version
      | none => .failed)
  | .save =>
    if fails then
      some (shared, .rejected)
    else
      some ({ shared with version := shared.version + 1 }, .purge (shared.version + 1))
  | .purge version =>
    some ({ shared with
        tenant := none
        returned := max shared.returned version },
      .returned version)
  | .served _ | .failed | .returned _ | .rejected => none

/-- One step of the system. -/
def step (state : State) : Act → Option State
  | .dispatch =>
    some { state with
      processes := state.processes ++ [⟨state.shared.returned, .readTenant⟩] }
  | .putConfig =>
    some { state with
      processes := state.processes ++ [⟨state.shared.returned, .save⟩] }
  | .advance index fails =>
    state.processes[index]?.bind fun process =>
      (process.pc.next state.shared fails).map fun result =>
        { shared := result.1
          processes := state.processes.set index { process with pc := result.2 } }

/-- No tenant is built, nothing is in progress, and `version` is saved. -/
def initial (version : Nat) : State where
  shared :=
    { version := version
      tenant := none
      guardEntry := none
      nextGuard := 0
      locked := []
      returned := version }
  processes := []

/-! ## Invariant -/

/-- A built tenant is at least as new as every returned version. -/
structure Shared.Coherent (shared : Shared) : Prop where
  returned_le : shared.returned ≤ shared.version
  tenant_fresh : ∀ version, shared.tenant = some version → shared.returned ≤ version

/-- What a process carries is at least as new as the version it is owed. -/
def Pc.Fresh (floor version : Nat) : Pc → Prop
  | .insertTenant _ built => floor ≤ built
  | .release _ (some built) => floor ≤ built
  | .served built => floor ≤ built
  | .purge saved => saved ≤ version
  | _ => True

structure Process.Coherent (shared : Shared) (process : Process) : Prop where
  floor_le : process.floor ≤ shared.returned
  fresh : process.pc.Fresh process.floor shared.version

structure State.Coherent (state : State) : Prop where
  shared : state.shared.Coherent
  processes : ∀ process ∈ state.processes, process.Coherent state.shared

/-- A load stores a tenant only if no newer version has been returned meanwhile. -/
def InsertsFresh (state : State) : Act → Prop
  | .advance index _ =>
    match state.processes[index]? with
    | some ⟨_, .insertTenant _ version⟩ => state.shared.returned ≤ version
    | _ => True
  | _ => True

instance (state : State) (action : Act) : Decidable (InsertsFresh state action) :=
  match action with
  | .dispatch | .putConfig => isTrue trivial
  | .advance index fails =>
    match found : state.processes[index]? with
    | some ⟨floor, .insertTenant guard version⟩ =>
      decidable_of_iff (state.shared.returned ≤ version) (by simp [InsertsFresh, found])
    | none | some ⟨_, .readTenant⟩ | some ⟨_, .takeGuard⟩ | some ⟨_, .lockGuard _⟩
    | some ⟨_, .recheck _⟩ | some ⟨_, .readConfig _⟩ | some ⟨_, .release _ _⟩
    | some ⟨_, .served _⟩ | some ⟨_, .failed⟩ | some ⟨_, .save⟩ | some ⟨_, .purge _⟩
    | some ⟨_, .returned _⟩ | some ⟨_, .rejected⟩ => isTrue (by simp [InsertsFresh, found])

/-- Returned and saved versions only grow, and a step keeps the shared state and its own
process coherent. -/
theorem next_coherent {shared after : Shared} {process : Process} {fails : Bool} {pc : Pc}
    (coherent : shared.Coherent) (own : process.Coherent shared)
    (fresh : ∀ guard version, process.pc = .insertTenant guard version →
      shared.returned ≤ version)
    (stepped : process.pc.next shared fails = some (after, pc)) :
    after.Coherent ∧ Process.Coherent after { process with pc := pc } ∧
      shared.returned ≤ after.returned ∧ shared.version ≤ after.version := by
  obtain ⟨floor, current⟩ := process
  have floor_le : floor ≤ shared.returned := own.floor_le
  have returned_le := coherent.returned_le
  have carried : current.Fresh floor shared.version := own.fresh
  simp only at stepped fresh
  cases current with
  | readTenant =>
    simp only [Pc.next] at stepped
    split at stepped
    next version built =>
      cases stepped
      have newer := coherent.tenant_fresh version built
      exact ⟨coherent, ⟨floor_le, floor_le.trans newer⟩, le_rfl, le_rfl⟩
    next =>
      cases stepped
      exact ⟨coherent, ⟨floor_le, trivial⟩, le_rfl, le_rfl⟩
  | takeGuard =>
    simp only [Pc.next] at stepped
    split at stepped
    next =>
      cases stepped
      exact ⟨coherent, ⟨floor_le, trivial⟩, le_rfl, le_rfl⟩
    next =>
      cases stepped
      exact ⟨⟨returned_le, coherent.tenant_fresh⟩, ⟨floor_le, trivial⟩, le_rfl, le_rfl⟩
  | lockGuard guard =>
    simp only [Pc.next] at stepped
    split at stepped
    next => cases stepped
    next =>
      cases stepped
      exact ⟨⟨returned_le, coherent.tenant_fresh⟩, ⟨floor_le, trivial⟩, le_rfl, le_rfl⟩
  | recheck guard =>
    simp only [Pc.next] at stepped
    split at stepped
    next version built =>
      cases stepped
      have newer := coherent.tenant_fresh version built
      exact ⟨coherent, ⟨floor_le, floor_le.trans newer⟩, le_rfl, le_rfl⟩
    next =>
      cases stepped
      exact ⟨coherent, ⟨floor_le, trivial⟩, le_rfl, le_rfl⟩
  | readConfig guard =>
    simp only [Pc.next] at stepped
    split at stepped
    next =>
      cases stepped
      exact ⟨coherent, ⟨floor_le, trivial⟩, le_rfl, le_rfl⟩
    next =>
      cases stepped
      exact ⟨coherent, ⟨floor_le, floor_le.trans returned_le⟩, le_rfl, le_rfl⟩
  | insertTenant guard version =>
    cases stepped
    have newer := fresh guard version rfl
    refine ⟨⟨returned_le, ?_⟩, ⟨floor_le, carried⟩, le_rfl, le_rfl⟩
    rintro built ⟨⟩
    exact newer
  | release guard outcome =>
    cases stepped
    refine ⟨⟨returned_le, coherent.tenant_fresh⟩, ⟨floor_le, ?_⟩, le_rfl, le_rfl⟩
    cases outcome with
    | none => trivial
    | some version => exact carried
  | save =>
    simp only [Pc.next] at stepped
    split at stepped
    next =>
      cases stepped
      exact ⟨coherent, ⟨floor_le, trivial⟩, le_rfl, le_rfl⟩
    next =>
      cases stepped
      exact ⟨⟨returned_le.trans (Nat.le_succ _), coherent.tenant_fresh⟩,
        ⟨floor_le, le_rfl⟩, le_rfl, Nat.le_succ _⟩
  | purge version =>
    cases stepped
    have saved : version ≤ shared.version := carried
    exact ⟨⟨max_le returned_le saved, nofun⟩,
      ⟨floor_le.trans (le_max_left _ _), trivial⟩, le_max_left _ _, le_rfl⟩
  | served | failed | returned | rejected => cases stepped

/-- What is coherent stays so while versions grow. -/
theorem Process.Coherent.mono {shared after : Shared} {process : Process}
    (coherent : process.Coherent shared) (returned : shared.returned ≤ after.returned)
    (version : shared.version ≤ after.version) : process.Coherent after := by
  refine ⟨coherent.floor_le.trans returned, ?_⟩
  have carried := coherent.fresh
  obtain ⟨floor, pc⟩ := process
  cases pc with
  | purge saved => exact le_trans (show saved ≤ shared.version from carried) version
  | release guard outcome => cases outcome <;> exact carried
  | _ => exact carried

theorem step_coherent (state : State) (action : Act) (next : State) (coherent : state.Coherent)
    (fresh : InsertsFresh state action) (stepped : step state action = some next) :
    next.Coherent := by
  have started : ∀ pc, Pc.Fresh state.shared.returned state.shared.version pc →
      State.Coherent { state with
        processes := state.processes ++ [⟨state.shared.returned, pc⟩] } := by
    intro pc startsFresh
    refine ⟨coherent.shared, fun process member => ?_⟩
    rcases List.mem_append.mp member with old | new
    · exact coherent.processes process old
    · rw [List.mem_singleton.mp new]
      exact ⟨le_rfl, startsFresh⟩
  cases action with
  | dispatch =>
    cases stepped
    exact started _ trivial
  | putConfig =>
    cases stepped
    exact started _ trivial
  | advance index fails =>
    obtain ⟨process, found, moved⟩ := Option.bind_eq_some_iff.mp stepped
    obtain ⟨⟨after, pc⟩, taken, rfl⟩ := Option.map_eq_some_iff.mp moved
    have own := coherent.processes process (List.mem_of_getElem? found)
    have inserts : ∀ guard version, process.pc = .insertTenant guard version →
        state.shared.returned ≤ version := by
      intro guard version at_insert
      obtain ⟨floor, current⟩ := process
      simp only at at_insert
      subst at_insert
      simpa [InsertsFresh, found] using fresh
    obtain ⟨shared, moved, returned, version⟩ :=
      next_coherent coherent.shared own inserts taken
    refine ⟨shared, fun other member => ?_⟩
    rcases List.mem_or_eq_of_mem_set member with old | new
    · exact (coherent.processes other old).mono returned version
    · rw [new]
      exact moved

theorem initial_coherent (version : Nat) : (initial version).Coherent where
  shared := ⟨le_rfl, nofun⟩
  processes := nofun

/-- In every run whose loads only store tenants that no returned version has overtaken, a
dispatch is served by a tenant at least as new as every version returned before it
started. -/
theorem dispatch_served_by_returned_version {version : Nat} {actions : List Act} {state : State}
    (fresh : AllMeet step InsertsFresh (initial version) actions)
    (executed : run step (initial version) actions = some state) {process : Process}
    (member : process ∈ state.processes) {built : Nat} (served : process.pc = .served built) :
    process.floor ≤ built := by
  have coherent := run_invariant step_coherent (initial_coherent version) fresh executed
  have carried := (coherent.processes process member).fresh
  rw [served] at carried
  exact carried

/-- A load to its end, a put to its end, and a second load to its end. -/
def putBetweenLoads : List Act :=
  [.dispatch, .advance 0 false, .advance 0 false, .advance 0 false, .advance 0 false,
    .advance 0 false, .advance 0 false, .advance 0 false,
    .putConfig, .advance 1 false, .advance 1 false,
    .dispatch, .advance 2 false, .advance 2 false, .advance 2 false, .advance 2 false,
    .advance 2 false, .advance 2 false, .advance 2 false]

/-- A put between two dispatches, each of which runs to its end. -/
theorem dispatch_served_after_put :
    ∃ state, run step (initial 0) putBetweenLoads = some state ∧
      ∀ process ∈ state.processes, ∀ built, process.pc = .served built →
        process.floor ≤ built := by
  have executed :
      run step (initial 0) putBetweenLoads =
        some ⟨⟨1, some 1, none, 2, [], 1⟩,
          [⟨0, .served 0⟩, ⟨0, .returned 1⟩, ⟨1, .served 1⟩]⟩ := by
    decide
  refine ⟨_, executed, fun process member built served => ?_⟩
  exact dispatch_served_by_returned_version (by decide) executed member served

/-- A load reads the configuration, a put replaces it and returns, the load then stores the
tenant it built, and the next dispatch is served by it. -/
theorem put_lost_to_slow_load :
    run step (initial 0)
      [.dispatch, .advance 0 false, .advance 0 false, .advance 0 false, .advance 0 false,
        .advance 0 false, .putConfig, .advance 1 false, .advance 1 false,
        .advance 0 false, .advance 0 false, .dispatch, .advance 2 false] =
      some ⟨⟨1, some 0, none, 1, [], 1⟩,
        [⟨0, .served 0⟩, ⟨0, .returned 1⟩, ⟨1, .served 0⟩]⟩ := by
  decide

end Rs2Runtime.Runtime.Reload
