import Rs2Runtime.Idempotency.Store

/-!
Contract: who owns which entry of an idempotency store, along every run.

Owns:
- the invariant that an executing request owns the entry of its slot while it is within its
  life in flight, and that every entry is of the request that began it last;
- the in-memory store: one live execution per key, and faithful answers;
- entries that outlive a dropped request;
- the durable store: late settlements, and runs without them.
-/

namespace Rs2Runtime.Idempotency

open Text Data

variable {limits : Limits}

/-! ## One step -/

theorem Entry.answer_ne_fresh (entry : Entry) (payloadHash : Option Str) :
    entry.answer payloadHash ≠ .fresh := by
  unfold Entry.answer
  split
  · intro same
    cases same
  · split <;>
      · intro same
        cases same

variable (limits) in
/-- What a `begin` of a slot without an entry comes to. -/
def System.owning (system : System) (slot : Slot) (payloadHash : Option Str) (count : Nat)
    (order : List Nat) (elapsed : Nat) : System where
  entries := (consulted limits (system.clock + elapsed) count order slot system.entries).put slot
    ⟨payloadHash, system.clock + elapsed, .inFlight⟩
  clock := system.clock + elapsed
  requests := system.requests + 1
  owners := system.owners.put system.requests ⟨slot, system.clock + elapsed, true⟩
  log := .fresh system.requests slot payloadHash :: system.log

variable (limits) in
/-- What a `begin` of a slot with an entry comes to. -/
def System.answered (system : System) (slot : Slot) (count : Nat) (order : List Nat)
    (elapsed : Nat) : System :=
  { system with
    entries := consulted limits (system.clock + elapsed) count order slot system.entries
    clock := system.clock + elapsed
    requests := system.requests + 1 }

variable (limits) in
/-- A `begin` is answered from the entry it consults, or owns a new one. -/
theorem begun_cases (system : System) (slot : Slot) (payloadHash : Option Str) (count : Nat)
    (order : List Nat) (elapsed : Nat) :
    ((consulted limits (system.clock + elapsed) count order slot system.entries).find slot = none ∧
      (beginKey limits (system.clock + elapsed) count order slot payloadHash
        system.entries).1 = .fresh ∧
      system.begun limits slot payloadHash count order elapsed =
        system.owning limits slot payloadHash count order elapsed) ∨
    (∃ entry,
      (consulted limits (system.clock + elapsed) count order slot system.entries).find slot =
        some entry ∧
      (beginKey limits (system.clock + elapsed) count order slot payloadHash
        system.entries).1 = entry.answer payloadHash ∧
      system.begun limits slot payloadHash count order elapsed =
        system.answered limits slot count order elapsed) := by
  cases found : (consulted limits (system.clock + elapsed) count order slot
      system.entries).find slot with
  | none =>
    have result : beginKey limits (system.clock + elapsed) count order slot payloadHash
        system.entries =
        (.fresh, (consulted limits (system.clock + elapsed) count order slot
          system.entries).put slot ⟨payloadHash, system.clock + elapsed, .inFlight⟩) := by
      rw [beginKey, found]
    refine .inl ⟨rfl, by rw [result], ?_⟩
    rw [System.begun, result, if_pos rfl]
    rfl
  | some entry =>
    have result : beginKey limits (system.clock + elapsed) count order slot payloadHash
        system.entries =
        (entry.answer payloadHash, consulted limits (system.clock + elapsed) count order slot
          system.entries) := by
      rw [beginKey, found]
    refine .inr ⟨entry, rfl, by rw [result], ?_⟩
    rw [System.begun, result, if_neg (entry.answer_ne_fresh payloadHash)]
    rfl

variable {system final : System} {slot : Slot} {request elapsed : Nat} {owner : Owner}
  {labels : List Label}

/-- What a step does. -/
theorem step_cases {next : System} {label : Label}
    (stepped : step limits system label = some next) :
    (∃ slot payloadHash count order elapsed,
      label = .begin slot payloadHash count order elapsed ∧
        next = system.begun limits slot payloadHash count order elapsed) ∨
    (∃ request settlement elapsed owner,
      label = .settle request settlement elapsed ∧
        system.owners.find request = some owner ∧ owner.live = true ∧
        next = system.settled request owner.slot settlement elapsed) ∨
    (∃ request owner, label = .drop request ∧ system.owners.find request = some owner ∧
      next = { system with
        owners := system.owners.put request { owner with live := false } }) := by
  cases label with
  | begin slot payloadHash count order elapsed =>
    cases stepped
    exact .inl ⟨slot, payloadHash, count, order, elapsed, rfl, rfl⟩
  | settle request settlement elapsed =>
    simp only [step] at stepped
    split at stepped
    next owner found =>
      split at stepped
      next live =>
        cases stepped
        exact .inr (.inl ⟨request, settlement, elapsed, owner, rfl, found, live, rfl⟩)
      next => cases stepped
    next => cases stepped
  | drop request =>
    simp only [step] at stepped
    split at stepped
    next owner found =>
      cases stepped
      exact .inr (.inr ⟨request, owner, rfl, found, rfl⟩)
    next => cases stepped

/-! ## The log -/

theorem lastFresh_fresh (request : Nat) (slot key : Slot) (payloadHash : Option Str)
    (log : List Event) :
    lastFresh (.fresh request slot payloadHash :: log) key =
      if slot = key then some (request, payloadHash) else lastFresh log key := by
  unfold lastFresh
  rw [List.findSome?_cons]
  by_cases same : slot = key
  · simp [same]
  · simp [same]

theorem lastComplete_fresh (request : Nat) (slot key : Slot) (payloadHash : Option Str)
    (log : List Event) :
    lastComplete (.fresh request slot payloadHash :: log) key = lastComplete log key :=
  rfl

theorem lastFresh_settled (request : Nat) (slot key : Slot) (settlement : Settlement)
    (log : List Event) :
    lastFresh (settledEvent request slot settlement :: log) key = lastFresh log key := by
  cases settlement <;> rfl

theorem lastComplete_completed (request : Nat) (slot key : Slot) (response : StoredResponse)
    (log : List Event) :
    lastComplete (.completed request slot response :: log) key =
      if slot = key then some (request, response) else lastComplete log key := by
  unfold lastComplete
  rw [List.findSome?_cons]
  by_cases same : slot = key
  · simp [same]
  · simp [same]

theorem lastComplete_settled_of_ne {key : Slot} (differs : slot ≠ key) (request : Nat)
    (settlement : Settlement) (log : List Event) :
    lastComplete (settledEvent request slot settlement :: log) key = lastComplete log key := by
  cases settlement with
  | complete response => rw [settledEvent, lastComplete_completed, if_neg differs]
  | abandon => rfl

theorem mem_of_lastComplete {log : List Event} {response : StoredResponse}
    (last : lastComplete log slot = some (request, response)) :
    .completed request slot response ∈ log := by
  obtain ⟨event, member, isComplete⟩ := List.exists_of_findSome?_eq_some last
  split at isComplete
  next other key found =>
    split at isComplete
    next same =>
      cases isComplete
      exact same ▸ member
    next => cases isComplete
  next => cases isComplete

/-! ## Ownership -/

variable (limits) in
/-- What was started then is still within its life in flight. -/
def Limits.Within (now startedAt : Nat) : Prop :=
  ∀ life, limits.inFlightLife = some life → now ≤ startedAt + life

theorem within_mem (window maxEntries now startedAt : Nat) :
    (Limits.mem window maxEntries).Within now startedAt := by
  intro life some_
  cases some_

theorem Limits.Within.mono {now later startedAt : Nat} (within : limits.Within later startedAt)
    (earlier : now ≤ later) : limits.Within now startedAt :=
  fun life isLife => earlier.trans (within life isLife)

theorem not_expired_of_within {now startedAt : Nat} (within : limits.Within now startedAt)
    (payloadHash : Option Str) :
    limits.expired now ⟨payloadHash, startedAt, .inFlight⟩ = false := by
  unfold Limits.expired
  dsimp only
  cases isLife : limits.inFlightLife with
  | none => rfl
  | some life =>
    rw [Option.any_some, decide_eq_false_iff_not]
    exact Nat.not_lt.mpr (within life isLife)

variable (limits) in
/-- Executing requests own the entry of their slot while they are within their life, and every
entry is of the request that began last on its slot. -/
structure Owned (system : System) : Prop where
  known : ∀ request owner, system.owners.find request = some owner → request < system.requests
  holds : ∀ request owner, system.owners.find request = some owner →
    limits.Within system.clock owner.startedAt →
      ∃ payloadHash,
        system.entries.find owner.slot = some ⟨payloadHash, owner.startedAt, .inFlight⟩ ∧
        lastFresh system.log owner.slot = some (request, payloadHash)
  begunBy : ∀ slot entry, system.entries.find slot = some entry →
    ∃ request, lastFresh system.log slot = some (request, entry.payloadHash) ∧
      ∀ response completedAt, entry.state = .done response completedAt →
        lastComplete system.log slot = some (request, response)

theorem owned_initial : Owned limits System.initial where
  known := by
    intro request owner found
    cases found
  holds := by
    intro request owner found
    cases found
  begunBy := by
    intro slot entry found
    cases found

/-- What an owner has is still there when a request consults the table. -/
theorem Owned.consulted (owned : Owned limits system)
    (found : system.owners.find request = some owner)
    (within : limits.Within (system.clock + elapsed) owner.startedAt) (count : Nat)
    (order : List Nat) (slot : Slot) :
    ∃ payloadHash,
      (consulted limits (system.clock + elapsed) count order slot system.entries).find owner.slot =
        some ⟨payloadHash, owner.startedAt, .inFlight⟩ ∧
      lastFresh system.log owner.slot = some (request, payloadHash) := by
  obtain ⟨payloadHash, entry, last⟩ :=
    owned.holds request owner found (within.mono (Nat.le_add_right _ _))
  exact ⟨payloadHash,
    consulted_of_inFlight entry rfl (not_expired_of_within within payloadHash) count order slot,
    last⟩

theorem Owned.answered (owned : Owned limits system) (slot : Slot) (count : Nat) (order : List Nat)
    (elapsed : Nat) :
    Owned limits (system.answered limits slot count order elapsed) where
  known := by
    intro request owner found
    exact Nat.lt_succ_of_lt (owned.known request owner found)
  holds := by
    intro request owner found within
    exact owned.consulted found within count order slot
  begunBy := by
    intro key entry found
    exact owned.begunBy key entry (find_of_consulted found)

theorem Owned.owning (owned : Owned limits system) {count : Nat} {order : List Nat} (absent :
      (Idempotency.consulted limits (system.clock + elapsed) count order slot
        system.entries).find slot = none) (payloadHash : Option Str) :
    Owned limits (system.owning limits slot payloadHash count order elapsed) where
  known := by
    intro request owner found
    rw [System.owning, Table.find_put] at found
    split at found
    next isNew => exact isNew ▸ Nat.lt_succ_self _
    next => exact Nat.lt_succ_of_lt (owned.known request owner found)
  holds := by
    intro request owner found within
    rw [System.owning, Table.find_put] at found
    dsimp only [System.owning] at within ⊢
    split at found
    next isNew =>
      cases found
      refine ⟨payloadHash, ?_, ?_⟩
      · rw [Table.find_put, if_pos rfl]
      · rw [lastFresh_fresh, if_pos rfl, isNew]
    next =>
      obtain ⟨other, entry, last⟩ := owned.consulted found within count order slot
      -- the slot of another owner has an entry, so it is not the one that is begun
      have differs : owner.slot ≠ slot := by
        intro same
        rw [same, absent] at entry
        cases entry
      refine ⟨other, ?_, ?_⟩
      · rw [Table.find_put, if_neg differs, entry]
      · rw [lastFresh_fresh, if_neg (Ne.symm differs), last]
  begunBy := by
    intro key entry found
    dsimp only [System.owning] at found ⊢
    rw [Table.find_put] at found
    split at found
    next same =>
      cases found
      refine ⟨system.requests, ?_, ?_⟩
      · rw [lastFresh_fresh, if_pos same.symm]
      · intro response completedAt isDone
        cases isDone
    next differs =>
      rw [lastFresh_fresh, if_neg (Ne.symm differs), lastComplete_fresh]
      exact owned.begunBy key entry (find_of_consulted found)

theorem Owned.begun (owned : Owned limits system) (slot : Slot) (payloadHash : Option Str)
    (count : Nat) (order : List Nat) (elapsed : Nat) :
    Owned limits (system.begun limits slot payloadHash count order elapsed) := by
  rcases begun_cases limits system slot payloadHash count order elapsed with
    ⟨absent, -, same⟩ | ⟨entry, -, -, same⟩
  · rw [same]
    exact owned.owning absent payloadHash
  · rw [same]
    exact owned.answered slot count order elapsed

/-- A settlement of an entry in flight ends its flight. -/
theorem find_settle {entries : Entries} {entry : Entry} (found : entries.find slot = some entry)
    (now : Nat) (settlement : Settlement) :
    (settle now slot settlement entries).find slot =
      match settlement with
      | .complete response => some { entry with state := .done response now }
      | .abandon => none := by
  cases settlement with
  | complete response =>
    rw [settle, complete, Table.find_update, if_pos rfl, found, Option.map_some]
  | abandon => rw [settle, abandon, Table.find_erase, if_pos rfl]

theorem find_settle_of_ne {key : Slot} (differs : key ≠ slot) (entries : Entries) (now : Nat)
    (settlement : Settlement) :
    (settle now slot settlement entries).find key = entries.find key := by
  cases settlement with
  | complete response => rw [settle, complete, Table.find_update, if_neg differs]
  | abandon => rw [settle, abandon, Table.find_erase, if_neg differs]

/-- A settlement in time is of the own entry, and leaves the others to their owners. -/
theorem Owned.settled (owned : Owned limits system)
    (found : system.owners.find request = some owner)
    (within : limits.Within (system.clock + elapsed) owner.startedAt) (settlement : Settlement) :
    Owned limits (system.settled request owner.slot settlement elapsed) := by
  obtain ⟨payloadHash, entry, last⟩ :=
    owned.holds request owner found (within.mono (Nat.le_add_right _ _))
  refine ⟨fun other otherOwner otherFound => ?_, fun other otherOwner otherFound otherWithin => ?_,
    fun key kept keptFound => ?_⟩
  · rw [System.settled, Table.find_erase] at otherFound
    split at otherFound
    · cases otherFound
    · exact owned.known other otherOwner otherFound
  · rw [System.settled, Table.find_erase] at otherFound
    dsimp only [System.settled] at otherWithin ⊢
    split at otherFound
    · cases otherFound
    next differs =>
      obtain ⟨otherHash, otherEntry, otherLast⟩ := owned.holds other otherOwner otherFound
        (otherWithin.mono (Nat.le_add_right _ _))
      -- the last to begin on a slot is one request, so the other one has another slot
      have slots : otherOwner.slot ≠ owner.slot := by
        intro same
        rw [same, last] at otherLast
        cases otherLast
        exact differs rfl
      refine ⟨otherHash, ?_, ?_⟩
      · rw [find_settle_of_ne slots, otherEntry]
      · rw [lastFresh_settled, otherLast]
  · dsimp only [System.settled] at keptFound ⊢
    rw [lastFresh_settled]
    by_cases same : key = owner.slot
    · subst same
      rw [find_settle entry] at keptFound
      cases settlement with
      | complete response =>
        cases keptFound
        refine ⟨request, last, fun recorded completedAt isDone => ?_⟩
        cases isDone
        rw [settledEvent, lastComplete_completed, if_pos rfl]
      | abandon => cases keptFound
    · rw [find_settle_of_ne same] at keptFound
      rw [lastComplete_settled_of_ne (Ne.symm same)]
      exact owned.begunBy key kept keptFound

theorem Owned.dropped (owned : Owned limits system)
    (found : system.owners.find request = some owner) :
    Owned limits { system with
      owners := system.owners.put request { owner with live := false } } := by
  have before : ∀ other otherOwner,
      (system.owners.put request { owner with live := false }).find other = some otherOwner →
      ∃ known, system.owners.find other = some known ∧ known.slot = otherOwner.slot ∧
        known.startedAt = otherOwner.startedAt := by
    intro other otherOwner otherFound
    rw [Table.find_put] at otherFound
    split at otherFound
    next same =>
      cases otherFound
      exact ⟨owner, same ▸ found, rfl, rfl⟩
    next => exact ⟨otherOwner, otherFound, rfl, rfl⟩
  refine ⟨fun other otherOwner otherFound => ?_, fun other otherOwner otherFound within => ?_,
    owned.begunBy⟩
  · obtain ⟨known, isKnown, -, -⟩ := before other otherOwner otherFound
    exact owned.known other known isKnown
  · obtain ⟨known, isKnown, sameSlot, sameStart⟩ := before other otherOwner otherFound
    rw [← sameSlot, ← sameStart]
    rw [← sameStart] at within
    exact owned.holds other known isKnown within

variable (limits) in
/-- A request settles within its life in flight. -/
def Timely (system : System) : Label → Prop
  | .settle request _ elapsed =>
    ∀ owner, system.owners.find request = some owner →
      limits.Within (system.clock + elapsed) owner.startedAt
  | _ => True

/-- Timely steps keep ownership. -/
theorem Owned.step {next : System} {label : Label} (owned : Owned limits system)
    (timely : Timely limits system label)
    (stepped : Idempotency.step limits system label = some next) : Owned limits next := by
  rcases step_cases stepped with ⟨slot, payloadHash, count, order, elapsed, rfl, rfl⟩ |
    ⟨request, settlement, elapsed, owner, rfl, found, -, rfl⟩ | ⟨request, owner, rfl, found, rfl⟩
  · exact owned.begun slot payloadHash count order elapsed
  · exact owned.settled found (timely owner found) settlement
  · exact owned.dropped found

/-- Ownership holds along every timely run. -/
theorem owned_of_run (timely : Machine.AllMeet (step limits) (Timely limits) .initial labels)
    (ran : Machine.run (step limits) .initial labels = some final) : Owned limits final :=
  Machine.run_invariant (fun _ _ _ owned timely stepped => owned.step timely stepped)
    owned_initial timely ran

/-! ## The in-memory store -/

theorem timely_mem (window maxEntries : Nat) (system : System) (label : Label) :
    Timely (.mem window maxEntries) system label := by
  cases label with
  | settle request settlement elapsed => exact fun _ _ => within_mem _ _ _ _
  | begin slot payloadHash count order elapsed => exact trivial
  | drop request => exact trivial

theorem owned_of_mem_run {window maxEntries : Nat}
    (ran : Machine.run (step (.mem window maxEntries)) .initial labels = some final) :
    Owned (.mem window maxEntries) final :=
  owned_of_run (Machine.allMeet_of_forall (timely_mem window maxEntries) _ _) ran

/-- A replay is answered from the completed entry of the request that began it. -/
theorem Owned.replayed (owned : Owned limits system) {payloadHash : Option Str} {count : Nat}
    {order : List Nat} {response : StoredResponse}
    (replays : (beginKey limits (system.clock + elapsed) count order slot payloadHash
      system.entries).1 = .replay response) :
    ∃ request stored, lastFresh system.log slot = some (request, stored) ∧
      lastComplete system.log slot = some (request, response) := by
  rcases begun_cases limits system slot payloadHash count order elapsed with
    ⟨-, fresh, -⟩ | ⟨entry, found, answered, -⟩
  · rw [fresh] at replays
    cases replays
  · obtain ⟨request, last, completed⟩ := owned.begunBy slot entry (find_of_consulted found)
    rw [answered, Entry.answer] at replays
    split at replays
    · cases replays
    · split at replays
      · cases replays
      next recorded completedAt isDone =>
        cases replays
        exact ⟨request, entry.payloadHash, last, completed response completedAt isDone⟩

/-- In every state that any interleaving of requests on the in-memory store reaches, for every
`begin` that follows: it is fresh only if no request that was fresh on the slot is still to
complete or abandon; it replays only the latest response completed on the slot; and the entry it
consults, if there is one, has the hash of the request that began it, and a different hash is a
mismatch. An entry in flight is always consulted. -/
theorem one_live_execution_per_key (window maxEntries : Nat) (labels : List Label) (final : System)
    (ran : Machine.run (step (.mem window maxEntries)) .initial labels = some final) (slot : Slot)
    (payloadHash : Option Str) (count : Nat) (order : List Nat) (elapsed : Nat) (answer : Begin)
    (answered : (beginKey (.mem window maxEntries) (final.clock + elapsed) count order slot
      payloadHash final.entries).1 = answer) :
    (answer = .fresh →
      ∀ request owner, final.owners.find request = some owner → owner.slot ≠ slot) ∧
    (∀ response, answer = .replay response →
      ∃ request, lastComplete final.log slot = some (request, response)) ∧
    (∀ entry,
      (consulted (.mem window maxEntries) (final.clock + elapsed) count order slot
        final.entries).find slot = some entry →
      (∃ request, lastFresh final.log slot = some (request, entry.payloadHash)) ∧
      (hashesDiffer entry.payloadHash payloadHash = true → answer = .payloadMismatch)) ∧
    (∀ entry, final.entries.find slot = some entry → entry.state = .inFlight →
      (consulted (.mem window maxEntries) (final.clock + elapsed) count order slot
        final.entries).find slot = some entry) := by
  subst answered
  have owned := owned_of_mem_run ran
  refine ⟨fun fresh request owner found same => ?_, fun response replays => ?_,
    fun entry found => ⟨?_, fun differ => ?_⟩, fun entry found inFlight => ?_⟩
  · have within : (Limits.mem window maxEntries).Within (final.clock + elapsed) owner.startedAt :=
      within_mem _ _ _ _
    obtain ⟨other, entry, -⟩ := owned.consulted found within count order slot
    rw [same] at entry
    rw [beginKey, entry] at fresh
    exact Entry.answer_ne_fresh _ _ fresh
  · obtain ⟨request, -, -, completed⟩ := owned.replayed replays
    exact ⟨request, completed⟩
  · obtain ⟨request, last, -⟩ := owned.begunBy slot entry (find_of_consulted found)
    exact ⟨request, last⟩
  · rw [beginKey, found]
    exact if_pos differ
  · refine consulted_of_inFlight found inFlight ?_ count order slot
    rw [Limits.expired, inFlight]
    rfl

/-! A completed key, and another in flight. -/

def sampleSlot (key : Str) : Slot :=
  ("t|/m|POST|/m/p", key)

/-- A response with a status only. -/
def sampleResponse (status : Nat) : StoredResponse :=
  ⟨status, [], none⟩

def oneDoneOneRunning : List Label :=
  [.begin (sampleSlot "k") (some "h") 0 [] 0, .settle 0 (.complete (sampleResponse 201)) 5,
    .begin (sampleSlot "l") (some "h") 1 [] 1]

theorem duplicate_of_completed_key_replays :
    ∃ final, Machine.run (step (.mem 100 10)) .initial oneDoneOneRunning = some final ∧
      ∃ request, lastComplete final.log (sampleSlot "k") = some (request, sampleResponse 201) := by
  obtain ⟨final, ran, answered⟩ :
      ∃ final, Machine.run (step (.mem 100 10)) .initial oneDoneOneRunning = some final ∧
        (beginKey (.mem 100 10) (final.clock + 3) 2 [] (sampleSlot "k") (some "h")
          final.entries).1 = .replay (sampleResponse 201) :=
    ⟨_, rfl, by decide +kernel⟩
  exact ⟨final, ran,
    (one_live_execution_per_key 100 10 oneDoneOneRunning final ran (sampleSlot "k") (some "h") 2 []
      3 _ answered).2.1 _ rfl⟩

/-! ## Dropped requests -/

/-- Every entry in flight has a request that will settle it. -/
def Attended (system : System) : Prop :=
  ∀ slot entry, system.entries.find slot = some entry → entry.state = .inFlight →
    ∃ request owner, system.owners.find request = some owner ∧ owner.slot = slot ∧
      owner.live = true

def Label.isDrop : Label → Bool
  | .drop _ => true
  | _ => false

theorem attended_initial : Attended System.initial := by
  intro slot entry found
  cases found

theorem Attended.begun (attended : Attended system) (owned : Owned limits system) (slot : Slot)
    (payloadHash : Option Str) (count : Nat) (order : List Nat) (elapsed : Nat) :
    Attended (system.begun limits slot payloadHash count order elapsed) := by
  intro key entry found inFlight
  rcases begun_cases limits system slot payloadHash count order elapsed with
    ⟨-, -, same⟩ | ⟨-, -, -, same⟩
  · rw [same] at found ⊢
    dsimp only [System.owning] at found ⊢
    rw [Table.find_put] at found
    split at found
    next isNew =>
      refine ⟨system.requests, ⟨slot, system.clock + elapsed, true⟩, ?_, isNew.symm, rfl⟩
      rw [Table.find_put, if_pos rfl]
    next =>
      obtain ⟨request, owner, isOwner, sameSlot, live⟩ :=
        attended key entry (find_of_consulted found) inFlight
      refine ⟨request, owner, ?_, sameSlot, live⟩
      rw [Table.find_put, if_neg (Nat.ne_of_lt (owned.known request owner isOwner)), isOwner]
  · rw [same] at found ⊢
    exact attended key entry (find_of_consulted found) inFlight

theorem Attended.settled (attended : Attended system) (owned : Owned limits system)
    (found : system.owners.find request = some owner)
    (within : limits.Within (system.clock + elapsed) owner.startedAt) (settlement : Settlement) :
    Attended (system.settled request owner.slot settlement elapsed) := by
  intro key entry keyFound inFlight
  dsimp only [System.settled] at keyFound ⊢
  obtain ⟨payloadHash, own, -⟩ :=
    owned.holds request owner found (within.mono (Nat.le_add_right _ _))
  by_cases same : key = owner.slot
  · subst same
    rw [find_settle own] at keyFound
    cases settlement with
    | complete response =>
      cases keyFound
      cases inFlight
    | abandon => cases keyFound
  · rw [find_settle_of_ne same] at keyFound
    obtain ⟨other, otherOwner, isOther, sameSlot, live⟩ := attended key entry keyFound inFlight
    have differs : other ≠ request := by
      rintro rfl
      rw [found] at isOther
      cases isOther
      exact same sameSlot.symm
    exact ⟨other, otherOwner, by rw [Table.find_erase, if_neg differs, isOther], sameSlot, live⟩

variable (limits) in
/-- Entries are owned, and attended while in flight. -/
structure Tended (system : System) : Prop where
  attended : Attended system
  owned : Owned limits system

theorem tended_of_run {window maxEntries : Nat}
    (undropped : Machine.AllMeet (step (.mem window maxEntries))
      (fun _ label => label.isDrop = false) .initial labels)
    (ran : Machine.run (step (.mem window maxEntries)) .initial labels = some final) :
    Tended (.mem window maxEntries) final := by
  refine Machine.run_invariant (fun system label next tended undropped stepped => ?_)
    ⟨attended_initial, owned_initial⟩ undropped ran
  obtain ⟨attended, owned⟩ := tended
  refine ⟨?_, owned.step (timely_mem window maxEntries system label) stepped⟩
  rcases step_cases stepped with ⟨slot, payloadHash, count, order, elapsed, rfl, rfl⟩ |
    ⟨request, settlement, elapsed, owner, rfl, found, -, rfl⟩ | ⟨request, owner, rfl, found, rfl⟩
  · exact attended.begun owned slot payloadHash count order elapsed
  · exact attended.settled owned found (within_mem _ _ _ _) settlement
  · cases undropped

/-- In every state of every run in which no executing request is dropped, a slot without a live
request has no entry in flight, and a `begin` on it is not answered with a conflict. -/
theorem in_flight_entries_are_attended (window maxEntries : Nat) (labels : List Label)
    (final : System)
    (undropped : Machine.AllMeet (step (.mem window maxEntries))
      (fun _ label => label.isDrop = false) .initial labels)
    (ran : Machine.run (step (.mem window maxEntries)) .initial labels = some final)
    (slot : Slot)
    (unattended : ∀ request owner, final.owners.find request = some owner → owner.live = true →
      owner.slot ≠ slot) :
    (∀ entry, final.entries.find slot = some entry → entry.state ≠ .inFlight) ∧
    (∀ payloadHash count order elapsed,
      (beginKey (.mem window maxEntries) (final.clock + elapsed) count order slot payloadHash
        final.entries).1 ≠ .inFlight) := by
  have attended := (tended_of_run undropped ran).attended
  have settled : ∀ entry, final.entries.find slot = some entry → entry.state ≠ .inFlight := by
    intro entry found inFlight
    obtain ⟨request, owner, isOwner, sameSlot, live⟩ := attended slot entry found inFlight
    exact unattended request owner isOwner live sameSlot
  refine ⟨settled, fun payloadHash count order elapsed conflict => ?_⟩
  rcases begun_cases (.mem window maxEntries) final slot payloadHash count order elapsed with
    ⟨-, fresh, -⟩ | ⟨entry, found, answered, -⟩
  · rw [fresh] at conflict
    cases conflict
  · rw [answered, Entry.answer] at conflict
    split at conflict
    · cases conflict
    · split at conflict
      next inFlight => exact settled entry (find_of_consulted found) inFlight
      next => cases conflict

theorem completed_key_is_not_in_flight :
    ∃ final, Machine.run (step (.mem 100 10)) .initial oneDoneOneRunning = some final ∧
      ∀ entry, final.entries.find (sampleSlot "k") = some entry → entry.state ≠ .inFlight := by
  obtain ⟨final, ran, owners⟩ :
      ∃ final, Machine.run (step (.mem 100 10)) .initial oneDoneOneRunning = some final ∧
        final.owners.rows = [(1, ⟨sampleSlot "l", 6, true⟩)] :=
    ⟨_, rfl, by decide +kernel⟩
  refine ⟨final, ran, (in_flight_entries_are_attended 100 10 oneDoneOneRunning final
    (by decide +kernel) ran (sampleSlot "k") fun request owner isOwner _ => ?_).1⟩
  have member := Table.mem_of_find isOwner
  rw [owners, List.mem_singleton] at member
  cases member
  decide

/-- A request is dropped while it executes. -/
def beginThenDrop : List Label :=
  [.begin (sampleSlot "k") (some "h") 0 [] 0, .drop 0]

/-- After a request was dropped, its entry is in flight without a live request, and every later
`begin` with the same payload is answered with a conflict, whenever it comes. -/
theorem dropped_request_blocks_key :
    ∃ final, Machine.run (step .memDefault) .initial beginThenDrop = some final ∧
      (∀ request owner, final.owners.find request = some owner → owner.live = false) ∧
      ∀ count order elapsed,
        (beginKey .memDefault (final.clock + elapsed) count order (sampleSlot "k") (some "h")
          final.entries).1 = .inFlight := by
  obtain ⟨final, ran, owners, entry⟩ :
      ∃ final, Machine.run (step .memDefault) .initial beginThenDrop = some final ∧
        final.owners.rows = [(0, ⟨sampleSlot "k", 0, false⟩)] ∧
        final.entries.find (sampleSlot "k") = some ⟨some "h", 0, .inFlight⟩ :=
    ⟨_, rfl, by decide +kernel, by decide +kernel⟩
  refine ⟨final, ran, fun request owner isOwner => ?_, fun count order elapsed => ?_⟩
  · have member := Table.mem_of_find isOwner
    rw [owners, List.mem_singleton] at member
    cases member
    rfl
  · rw [beginKey, consulted_of_inFlight entry rfl rfl count order]
    rfl

/-! ## The durable store -/

/-- In every state of every run in which requests settle within their life in flight: such a
settlement has no effect on an entry that another request began, and a replay returns the
response of the request that began the entry. -/
theorem durable_entries_are_owned (windowMs maxEntries inFlightMs : Nat) (labels : List Label)
    (final : System)
    (timely : Machine.AllMeet (step (.sqlite windowMs maxEntries inFlightMs))
      (Timely (.sqlite windowMs maxEntries inFlightMs)) .initial labels)
    (ran : Machine.run (step (.sqlite windowMs maxEntries inFlightMs)) .initial labels =
      some final) :
    (∀ request settlement elapsed next,
      Timely (.sqlite windowMs maxEntries inFlightMs) final
        (.settle request settlement elapsed) →
      step (.sqlite windowMs maxEntries inFlightMs) final (.settle request settlement elapsed) =
        some next →
      ∀ slot other payloadHash, lastFresh final.log slot = some (other, payloadHash) →
        other ≠ request → next.entries.find slot = final.entries.find slot) ∧
    (∀ slot payloadHash count order elapsed response,
      (beginKey (.sqlite windowMs maxEntries inFlightMs) (final.clock + elapsed) count order slot
        payloadHash final.entries).1 = .replay response →
      ∃ request stored, lastFresh final.log slot = some (request, stored) ∧
        .completed request slot response ∈ final.log) := by
  have owned := owned_of_run timely ran
  refine ⟨?_, ?_⟩
  · intro request settlement elapsed next inTime stepped slot other payloadHash last differs
    rcases step_cases stepped with ⟨_, _, _, _, _, same, -⟩ |
      ⟨_, _, _, owner, same, found, -, rfl⟩ | ⟨_, _, same, -⟩
    · cases same
    · cases same
      obtain ⟨stored, -, ownLast⟩ := owned.holds request owner found
        ((inTime owner found).mono (Nat.le_add_right _ _))
      have slots : slot ≠ owner.slot := by
        rintro rfl
        rw [ownLast] at last
        cases last
        exact differs rfl
      exact find_settle_of_ne slots _ _ _
    · cases same
  · intro slot payloadHash count order elapsed response replays
    obtain ⟨request, stored, last, completed⟩ := owned.replayed replays
    exact ⟨request, stored, last, mem_of_lastComplete completed⟩

/-- A request that is still executing when its entry has expired and another request has begun
anew. -/
def overtaken (settlement : Settlement) : List Label :=
  [.begin (sampleSlot "k") (some "h") 0 [] 0, .begin (sampleSlot "k") (some "h") 1 [] 300001,
    .settle 0 settlement 1]

theorem timely_completion_replays :
    ∃ final, Machine.run (step .sqliteDefault) .initial oneDoneOneRunning = some final ∧
      ∃ request stored, lastFresh final.log (sampleSlot "k") = some (request, stored) ∧
        .completed request (sampleSlot "k") (sampleResponse 201) ∈ final.log := by
  obtain ⟨final, ran, replays⟩ :
      ∃ final, Machine.run (step .sqliteDefault) .initial oneDoneOneRunning = some final ∧
        (beginKey .sqliteDefault (final.clock + 3) 2 [] (sampleSlot "k") (some "h")
          final.entries).1 = .replay (sampleResponse 201) :=
    ⟨_, rfl, by decide +kernel⟩
  refine ⟨final, ran, ?_⟩
  refine (durable_entries_are_owned (24 * 60 * 60 * 1000) 100000 (5 * 60000) oneDoneOneRunning
    final ⟨trivial, ?_, trivial, trivial⟩ ran).2 _ _ _ _ _ _ replays
  intro owner found life isLife
  cases isLife
  cases found
  decide

/-- The late `complete` of an overtaken request is replayed for the entry of the other one, which
is still executing; a late `abandon` removes that entry. -/
theorem late_settlement_hits_other_entry :
    (∃ final, Machine.run (step .sqliteDefault) .initial
        (overtaken (.complete (sampleResponse 500))) = some final ∧
      lastFresh final.log (sampleSlot "k") = some (1, some ("h" : Str)) ∧
      final.owners.find 1 = some ⟨sampleSlot "k", 300001, true⟩ ∧
      (beginKey .sqliteDefault (final.clock + 1) 2 [] (sampleSlot "k") (some "h")
        final.entries).1 = .replay (sampleResponse 500)) ∧
    (∃ final, Machine.run (step .sqliteDefault) .initial (overtaken .abandon) = some final ∧
      lastFresh final.log (sampleSlot "k") = some (1, some ("h" : Str)) ∧
      final.owners.find 1 = some ⟨sampleSlot "k", 300001, true⟩ ∧
      final.entries.find (sampleSlot "k") = none) :=
  ⟨⟨_, rfl, by decide +kernel, by decide +kernel, by decide +kernel⟩,
    ⟨_, rfl, by decide +kernel, by decide +kernel, by decide +kernel⟩⟩

end Rs2Runtime.Idempotency
