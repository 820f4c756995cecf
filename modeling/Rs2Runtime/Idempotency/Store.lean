import Rs2Runtime.Data.Completion
import Rs2Runtime.Data.Machine
import Rs2Runtime.Data.Table
import Rs2Runtime.Idempotency.Replay

/-!
Contract: the idempotency stores, and requests that share one.

Owns:
- entries, their expiry, the sweep with its eviction, and the three operations of a store;
- the in-memory and the durable store as two settings of one design;
- the machine of any number of requests that begin, settle or are dropped at any times;
- who owns which entry, along every run.
-/

namespace Rs2Runtime.Idempotency

open Text Data

/-! ## The store -/

/-- A key within its scope. -/
abbrev Slot := Str × Str

inductive EntryState where
  | inFlight
  | done (response : StoredResponse) (completedAt : Nat)
  deriving DecidableEq

/-- What is kept under a slot. Only the durable store reads when an entry was started. -/
structure Entry where
  payloadHash : Option Str
  startedAt : Nat
  state : EntryState
  deriving DecidableEq

/-- The outcome of registering a key. -/
inductive Begin where
  | fresh
  | inFlight
  | replay (response : StoredResponse)
  | payloadMismatch
  deriving DecidableEq

abbrev Entries := Table Slot Entry

/-- The settings of a store; times are in its unit. -/
structure Limits where
  window : Nat
  maxEntries : Nat
  /-- How long an entry may be in flight before it counts as abandoned; none for ever. -/
  inFlightLife : Option Nat

/-- The in-memory store never gives up on an entry in flight. -/
def Limits.mem (window maxEntries : Nat) : Limits :=
  ⟨window, maxEntries, none⟩

/-- The durable store. -/
def Limits.sqlite (windowMs maxEntries inFlightMs : Nat) : Limits :=
  ⟨windowMs, maxEntries, some inFlightMs⟩

def sweepEvery : Nat := 4096

/-- The default settings of both stores, in milliseconds. -/
def Limits.memDefault : Limits :=
  .mem (24 * 60 * 60 * 1000) 100000

def Limits.sqliteDefault : Limits :=
  .sqlite (24 * 60 * 60 * 1000) 100000 (5 * 60000)

variable (limits : Limits)

/-- An entry past its window, or past its life in flight. -/
def Limits.expired (now : Nat) (entry : Entry) : Bool :=
  match entry.state with
  | .inFlight => limits.inFlightLife.any fun life => entry.startedAt + life < now
  | .done _ completedAt => completedAt + limits.window < now

/-- The completed entries with their times. -/
def completedSlots (entries : Entries) : List (Slot × Nat) :=
  entries.rows.filterMap fun row =>
    match row.2.state with
    | .inFlight => none
    | .done _ completedAt => some (row.1, completedAt)

/-- The completed slots, oldest first; equally old ones in the order of the underlying table,
which is arbitrary. -/
def oldestFirst (order : List Nat) (entries : Entries) : List (Slot × Nat) :=
  (Completion.arrange order (completedSlots entries)).insertionSort fun first second =>
    first.2 ≤ second.2

/-- Drop what is expired; if the table is still full, evict the oldest completed entries. -/
def sweep (now : Nat) (order : List Nat) (forceEvict : Bool) (entries : Entries) : Entries :=
  let kept := entries.retain fun _ entry => !limits.expired now entry
  if forceEvict && limits.maxEntries ≤ kept.size then
    kept.eraseAll (((oldestFirst order kept).take (limits.maxEntries / 8 + 1)).map Prod.fst)
  else
    kept

/-- Opportunistic expiry of the addressed slot. -/
def expireSlot (now : Nat) (slot : Slot) (entries : Entries) : Entries :=
  if (entries.find slot).any (limits.expired now) then entries.erase slot else entries

/-- The entries that a `begin` consults: `count` begins were counted before it. -/
def consulted (now count : Nat) (order : List Nat) (slot : Slot) (entries : Entries) : Entries :=
  expireSlot limits now slot
    (if count % sweepEvery = 0 ∨ limits.maxEntries ≤ entries.size then
      sweep limits now order true entries
    else
      entries)

/-- Two payloads are known to differ; streamed ones are not hashed. -/
def hashesDiffer (stored incoming : Option Str) : Bool :=
  match stored, incoming with
  | some stored, some incoming => stored ≠ incoming
  | _, _ => false

/-- The answer for a slot that has an entry. -/
def Entry.answer (entry : Entry) (payloadHash : Option Str) : Begin :=
  if hashesDiffer entry.payloadHash payloadHash then
    .payloadMismatch
  else
    match entry.state with
    | .inFlight => .inFlight
    | .done response _ => .replay response

/-- Register a key. -/
def beginKey (now count : Nat) (order : List Nat) (slot : Slot) (payloadHash : Option Str)
    (entries : Entries) : Begin × Entries :=
  let entries := consulted limits now count order slot entries
  match entries.find slot with
  | none => (.fresh, entries.put slot ⟨payloadHash, now, .inFlight⟩)
  | some entry => (entry.answer payloadHash, entries)

/-- Record a response, if there is an entry. -/
def complete (now : Nat) (slot : Slot) (response : StoredResponse) (entries : Entries) : Entries :=
  entries.update slot fun entry => { entry with state := .done response now }

/-- Drop a registration. -/
def abandon (slot : Slot) (entries : Entries) : Entries :=
  entries.erase slot

/-- Complete or abandon. -/
def settle (now : Nat) (slot : Slot) (settlement : Settlement) (entries : Entries) : Entries :=
  match settlement with
  | .complete response => complete now slot response entries
  | .abandon => abandon slot entries

/-! ## Requests -/

/-- A request whose key was fresh, until it completes or abandons; a dropped one never will. -/
structure Owner where
  slot : Slot
  startedAt : Nat
  live : Bool
  deriving DecidableEq

/-- What happened at the store. -/
inductive Event where
  | fresh (request : Nat) (slot : Slot) (payloadHash : Option Str)
  | completed (request : Nat) (slot : Slot) (response : StoredResponse)
  | abandoned (request : Nat) (slot : Slot)
  deriving DecidableEq

/-- A store with its requests; the log has the newest event first. -/
structure System where
  entries : Entries
  clock : Nat
  requests : Nat
  owners : Table Nat Owner
  log : List Event
  deriving DecidableEq

def System.initial : System :=
  ⟨.empty, 0, 0, .empty, []⟩

/-- One operation, some time after the one before. The count that a `begin` sees is drawn
before it locks the table, so it may be any. -/
inductive Label where
  | begin (slot : Slot) (payloadHash : Option Str) (count : Nat) (order : List Nat) (elapsed : Nat)
  | settle (request : Nat) (settlement : Settlement) (elapsed : Nat)
  | drop (request : Nat)
  deriving DecidableEq

/-- The event of a settlement. -/
def settledEvent (request : Nat) (slot : Slot) : Settlement → Event
  | .complete response => .completed request slot response
  | .abandon => .abandoned request slot

/-- A request begins. -/
def System.begun (system : System) (slot : Slot) (payloadHash : Option Str) (count : Nat)
    (order : List Nat) (elapsed : Nat) : System :=
  let now := system.clock + elapsed
  let result := beginKey limits now count order slot payloadHash system.entries
  if result.1 = .fresh then
    { entries := result.2
      clock := now
      requests := system.requests + 1
      owners := system.owners.put system.requests ⟨slot, now, true⟩
      log := .fresh system.requests slot payloadHash :: system.log }
  else
    { system with entries := result.2, clock := now, requests := system.requests + 1 }

/-- A request settles its entry. -/
def System.settled (system : System) (request : Nat) (slot : Slot) (settlement : Settlement)
    (elapsed : Nat) : System :=
  let now := system.clock + elapsed
  { system with
    entries := Idempotency.settle now slot settlement system.entries
    clock := now
    owners := system.owners.erase request
    log := settledEvent request slot settlement :: system.log }

/-- Only requests that execute settle or are dropped. -/
def step (system : System) : Label → Option System
  | .begin slot payloadHash count order elapsed =>
    some (system.begun limits slot payloadHash count order elapsed)
  | .settle request settlement elapsed =>
    match system.owners.find request with
    | some owner =>
      if owner.live then
        some (system.settled request owner.slot settlement elapsed)
      else
        none
    | none => none
  | .drop request =>
    match system.owners.find request with
    | some owner =>
      some { system with owners := system.owners.put request { owner with live := false } }
    | none => none

/-- The request that began the latest entry of a slot, with its hash. -/
def lastFresh (log : List Event) (slot : Slot) : Option (Nat × Option Str) :=
  log.findSome? fun event =>
    match event with
    | .fresh request other payloadHash => if other = slot then some (request, payloadHash) else none
    | _ => none

/-- The latest `complete` of a slot, with its request. -/
def lastComplete (log : List Event) (slot : Slot) : Option (Nat × StoredResponse) :=
  log.findSome? fun event =>
    match event with
    | .completed request other response => if other = slot then some (request, response) else none
    | _ => none

/-! ## What a `begin` consults -/

variable {limits}

variable {now : Nat} {order : List Nat} {key slot : Slot} {entries : Entries} {entry : Entry}

theorem find_of_sweep {forceEvict : Bool}
    (found : (sweep limits now order forceEvict entries).find key = some entry) :
    entries.find key = some entry := by
  unfold sweep at found
  dsimp only at found
  split at found
  · rw [Table.eraseAll, Table.find_retain, Table.find_retain] at found
    exact (Option.filter_eq_some_iff.mp (Option.filter_eq_some_iff.mp found).1).1
  · rw [Table.find_retain] at found
    exact (Option.filter_eq_some_iff.mp found).1

theorem find_of_expireSlot (found : (expireSlot limits now slot entries).find key = some entry) :
    entries.find key = some entry := by
  unfold expireSlot at found
  split at found
  · rw [Table.find_erase] at found
    split at found
    · cases found
    · exact found
  · exact found

/-- Consulting the table only removes entries. -/
theorem find_of_consulted {count : Nat}
    (found : (consulted limits now count order slot entries).find key = some entry) :
    entries.find key = some entry := by
  have before := find_of_expireSlot found
  split at before
  · exact find_of_sweep before
  · exact before

/-- Only completed entries are evicted. -/
theorem completed_of_oldestFirst {completedAt : Nat}
    (listed : (slot, completedAt) ∈ oldestFirst order entries) :
    ∃ entry response, entries.find slot = some entry ∧ entry.state = .done response completedAt := by
  have arranged : (slot, completedAt) ∈ Completion.arrange order (completedSlots entries) :=
    (List.mem_insertionSort _).mp listed
  obtain ⟨index, -, found⟩ := List.mem_filterMap.mp arranged
  obtain ⟨row, member, isDone⟩ := List.mem_filterMap.mp (List.mem_of_getElem? found)
  split at isDone
  · cases isDone
  next response time isState =>
    cases isDone
    exact ⟨row.2, response, Table.find_of_mem member, isState⟩

/-- An entry in flight is consulted as long as it lives. -/
theorem consulted_of_inFlight (found : entries.find key = some entry)
    (inFlight : entry.state = .inFlight) (lives : limits.expired now entry = false) (count : Nat)
    (order : List Nat) (slot : Slot) :
    (consulted limits now count order slot entries).find key = some entry := by
  have kept : (entries.retain fun _ entry => !limits.expired now entry).find key = some entry := by
    rw [Table.find_retain, found, Option.filter_some, lives]
    rfl
  have swept : (sweep limits now order true entries).find key = some entry := by
    unfold sweep
    dsimp only
    split
    · rw [Table.eraseAll, Table.find_retain, kept, Option.filter_some, if_pos]
      simp only [decide_eq_true_eq, List.mem_map, not_exists, not_and]
      rintro ⟨other, completedAt⟩ taken rfl
      obtain ⟨done, response, sameFound, isDone⟩ :=
        completed_of_oldestFirst (List.mem_of_mem_take taken)
      rw [kept] at sameFound
      cases sameFound
      rw [inFlight] at isDone
      cases isDone
    · exact kept
  have remains : ∀ {entries : Entries}, entries.find key = some entry →
      (expireSlot limits now slot entries).find key = some entry := by
    intro entries found
    unfold expireSlot
    split
    next gone =>
      rw [Table.find_erase, if_neg, found]
      rintro rfl
      rw [found, Option.any_some, lives] at gone
      cases gone
    next => exact found
  unfold consulted
  split
  · exact remains swept
  · exact remains found

end Rs2Runtime.Idempotency
