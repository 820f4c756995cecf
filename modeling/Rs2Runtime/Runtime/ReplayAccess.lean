import Rs2Runtime.Runtime.Dispatch

/-!
Contract: whether a replayed response reaches only callers who would be let through themselves.

Owns:
- requests that record a response under their key, and requests that it is replayed to;
- when no replay between two moments gets around an access check.
-/

namespace Rs2Runtime.Runtime

open Text Data Json Wrapper Router
open Idempotency Rs2Runtime.Services

/-- Two requests that differ in who makes them. -/
structure SameRequest (first second : Message) : Prop where
  tenant : second.tenant = first.tenant
  method : second.method = first.method
  path : second.url.path = first.url.path
  key : second.header "idempotency-key" = first.header "idempotency-key"
  body : second.body = first.body

/-- A request arrives at a mount and carries a key. -/
structure Keyed (host : Host) (msg arrived : Message) (mount : Mount) (slot : Slot) : Prop where
  routed : host.arrive msg = .ok (.routed arrived mount)
  scope : slot.1 = scopeFor arrived mount.basePath
  key : arrived.header "idempotency-key" = some slot.2
  short : utf8Len slot.2 ≤ maxKeyLen

/-- A request is executed under a fresh key, and its response recorded. -/
structure Records (digest : Octets → Str) (limits : Limits) (host : Host) (services : Services)
    (moment : Moment) (msg : Message) (entries : Entries) (arrived : Message) (mount : Mount)
    (slot : Slot) (stored : StoredResponse) : Prop where
  keyed : Keyed host msg arrived mount slot
  fresh : (beginFor digest limits moment slot arrived entries).1 = .fresh
  complete : (settleFresh (invoke host services mount arrived)).2 = .complete stored

/-- A request is answered with a recorded response. -/
structure Replays (digest : Octets → Str) (limits : Limits) (host : Host) (moment : Moment)
    (msg : Message) (entries : Entries) (arrived : Message) (mount : Mount) (slot : Slot)
    (stored : StoredResponse) : Prop where
  keyed : Keyed host msg arrived mount slot
  replay : (beginFor digest limits moment slot arrived entries).1 = .replay stored

/-- The request, executed by itself, would be let through by the mount's access, and on a
pipeline mount by the access of the pipeline that governs it. -/
def PassesAccess (host : Host) (msg : Message) : Prop :=
  ∃ arrived mount, host.arrive msg = .ok (.routed arrived mount) ∧
    checkAccess arrived mount = .ok () ∧
    (mount.service = "pipeline" →
      PipelineService.Unrefused (host.pipelines mount) mount.config arrived)

/-- No replay gets around an access check: whatever the services do and whenever the requests
come, if the entry that the first request left is replayed to the second, the second would be
let through itself. -/
def NeverBypasses (digest : Octets → Str) (before after : Host) : Prop :=
  ∀ limits services moment later first second entries laterEntries arrived mount arrived' mount'
      slot stored,
    SameRequest first second →
    Records digest limits before services moment first entries arrived mount slot stored →
    laterEntries.find slot =
      (dispatch digest limits before services moment first entries).2.find slot →
    Replays digest limits after later second laterEntries arrived' mount' slot stored →
    PassesAccess after second

/-- A keyed request that one caller gets executed at the first moment is not refused by the
access of the pipeline that governs it at the second moment, for any caller that the host lets
through. -/
def Undiscriminating (before after : Host) : Prop :=
  ∀ first second arrived mount arrived' mount' slot,
    SameRequest first second →
    Keyed before first arrived mount slot →
    Keyed after second arrived' mount' slot →
    (mount.service = "pipeline" →
      PipelineService.Admitted (before.pipelines mount) mount.config arrived) →
    mount'.service = "pipeline" →
    PipelineService.Unrefused (after.pipelines mount') mount'.config arrived'

/-! ## What the two requests do -/

section Requests

variable {digest : Octets → Str} {limits : Limits} {host : Host} {services : Services}
  {moment : Moment} {msg arrived : Message} {entries : Entries} {mount : Mount} {slot : Slot}
  {stored : StoredResponse}

theorem Keyed.slot_eq (keyed : Keyed host msg arrived mount slot) :
    slot = (scopeFor arrived mount.basePath, slot.2) :=
  Prod.ext keyed.scope rfl

/-- The entry that a recorded request leaves. -/
theorem Records.find_dispatch
    (records : Records digest limits host services moment msg entries arrived mount slot stored) :
    (dispatch digest limits host services moment msg entries).2.find slot =
      some ⟨payloadHash digest arrived, moment.now, .done stored moment.settled⟩ := by
  have fresh := records.fresh
  rw [beginFor, beginKey] at fresh
  rw [dispatch, records.keyed.routed]
  dsimp only
  rw [records.keyed.key]
  dsimp only
  rw [invokeKeyed, if_neg (Nat.not_lt.mpr records.keyed.short)]
  dsimp only
  rw [← records.keyed.slot_eq, records.fresh]
  dsimp only
  rw [records.complete, settle, Idempotency.complete, beginFor, beginKey]
  split
  next absent => simp
  next entry present =>
    rw [present] at fresh
    dsimp only at fresh
    unfold Entry.answer at fresh
    split at fresh
    · cases fresh
    · split at fresh <;> cases fresh

/-- What is recorded has been executed, so on a pipeline mount it was admitted. -/
theorem Records.admitted
    (records : Records digest limits host services moment msg entries arrived mount slot stored)
    (pipeline : mount.service = "pipeline") :
    PipelineService.Admitted (host.pipelines mount) mount.config arrived := by
  have complete := records.complete
  cases invoked : invoke host services mount arrived with
  | error e =>
    rw [invoked, settleFresh] at complete
    cases complete
  | ok resp =>
    rw [invoke, if_pos pipeline] at invoked
    exact PipelineService.admitted_of_handle invoked

end Requests

/-! ## Replays of admitted requests -/

/-- Services that answer every request with success and nothing else. -/
def acknowledging : Services where
  serve := fun _ msg => .ok msg.noContent
  pipeline := fun _ => .answering Message.noContent

/-- The recorded form of such an answer. -/
def acknowledgement : StoredResponse where
  status := 204
  headers := []
  body := none

theorem settleFresh_acknowledging {host : Host} {mount : Mount} {msg : Message}
    (admitted : mount.service = "pipeline" →
      PipelineService.Admitted (host.pipelines mount) mount.config msg) :
    (settleFresh (invoke host acknowledging mount msg)).2 = .complete acknowledgement := by
  have invoked : invoke host acknowledging mount msg = .ok msg.noContent := by
    unfold invoke
    split
    next pipeline => exact PipelineService.handle_of_admitted (admitted pipeline) Message.noContent
    next => rfl
  rw [invoked]
  rfl

/-- A store of keys with room for two. -/
def roomForTwo : Limits :=
  .mem 0 2

/-- The moment at which both requests come, after the store of keys has been asked before. -/
def promptMoment : Moment :=
  ⟨0, 1, [], 0⟩

theorem records_acknowledgement {digest : Octets → Str} {host : Host} {msg arrived : Message}
    {mount : Mount} {slot : Slot} (keyed : Keyed host msg arrived mount slot)
    (admitted : mount.service = "pipeline" →
      PipelineService.Admitted (host.pipelines mount) mount.config arrived) :
    Records digest roomForTwo host acknowledging promptMoment msg .empty arrived mount slot
      acknowledgement where
  keyed := keyed
  fresh := rfl
  complete := settleFresh_acknowledging admitted

/-- An entry just recorded is replayed to a request with its payload. -/
theorem beginKey_of_done {entries : Entries} {slot : Slot} {hash : Option Str}
    {startedAt now : Nat} {stored : StoredResponse}
    (found : entries.find slot = some ⟨hash, startedAt, .done stored now⟩)
    (few : entries.size < roomForTwo.maxEntries) :
    (beginKey roomForTwo now 1 [] slot hash entries).1 = .replay stored := by
  have calm : ¬ (1 % sweepEvery = 0 ∨ roomForTwo.maxEntries ≤ entries.size) := by
    rintro (swept | full)
    · exact absurd swept (by decide)
    · exact absurd few (Nat.not_lt.mpr full)
  have current : (entries.find slot).any (roomForTwo.expired now) = false := by
    rw [found]
    simp [Limits.expired]
  have same : hashesDiffer hash hash = false := by
    cases hash <;> simp [hashesDiffer]
  rw [beginKey, consulted, if_neg calm, expireSlot, current, if_neg (by decide), found]
  dsimp only
  rw [Entry.answer, same]
  rfl

/-- A store of keys with one acknowledged request. -/
def entriesOf (slot : Slot) (hash : Option Str) : Entries :=
  Table.empty.put slot ⟨hash, 0, .done acknowledgement 0⟩

theorem find_entriesOf (slot : Slot) (hash : Option Str) :
    (entriesOf slot hash).find slot = some ⟨hash, 0, .done acknowledgement 0⟩ := by
  rw [entriesOf, Table.find_put, if_pos rfl]

theorem size_entriesOf (slot : Slot) (hash : Option Str) :
    (entriesOf slot hash).size < roomForTwo.maxEntries := by
  exact Nat.one_lt_two

/-- Arrival leaves a request's tenant, method, path and payload. -/
theorem Keyed.frame {host : Host} {msg arrived : Message} {mount : Mount} {slot : Slot}
    (keyed : Keyed host msg arrived mount slot) :
    arrived.tenant = msg.tenant ∧ arrived.method = msg.method ∧ arrived.url.path = msg.url.path ∧
      arrived.body = msg.body := by
  obtain ⟨⟨principal, rfl⟩, -⟩ := Host.arrive_eq_routed keyed.routed
  exact ⟨rfl, rfl, rfl, rfl⟩

/-- No replay between two moments gets around an access check, exactly if the access of
pipelines does not discriminate between callers. -/
theorem replay_never_bypasses_access_iff (digest : Octets → Str) (before after : Host) :
    NeverBypasses digest before after ↔ Undiscriminating before after := by
  constructor
  · intro never first second arrived mount arrived' mount' slot same keyed keyed' admitted
      pipeline
    -- The first request is acknowledged at once, and the second comes right after it.
    have records : Records digest roomForTwo before acknowledging promptMoment first .empty arrived
        mount slot acknowledgement := records_acknowledgement keyed admitted
    have sameHash : payloadHash digest arrived' = payloadHash digest arrived := by
      rw [payloadHash, payloadHash, keyed'.frame.2.2.2, keyed.frame.2.2.2, same.body]
    have replays : Replays digest roomForTwo after promptMoment second
        (entriesOf slot (payloadHash digest arrived)) arrived' mount' slot acknowledgement :=
      ⟨keyed', by
        rw [beginFor, sameHash]
        exact beginKey_of_done (find_entriesOf slot _) (size_entriesOf slot _)⟩
    obtain ⟨_, _, routed, -, unrefused⟩ := never roomForTwo acknowledging promptMoment promptMoment
      first second .empty _ arrived mount arrived' mount' slot acknowledgement same records
      ((find_entriesOf slot _).trans records.find_dispatch.symm) replays
    rw [keyed'.routed] at routed
    cases routed
    exact unrefused pipeline
  · intro undiscriminating limits services moment later first second entries laterEntries arrived
      mount arrived' mount' slot stored same records _ replays
    have passed := (Host.arrive_eq_routed replays.keyed.routed).2
    exact ⟨arrived', mount', replays.keyed.routed, passed,
      undiscriminating first second arrived mount arrived' mount' slot same records.keyed
        replays.keyed records.admitted⟩

/-! ## A pipeline for administrators -/

def adminMount : Mount where
  basePath := "/p"
  service := "pipeline"
  config := Value.object [("access", Value.object [("invoke", .str "A")])]

/-- A host with one pipeline mount, on which one pipeline governs every path. -/
def adminHost : Host :=
  { quietHost
      { mounts := [adminMount]
        normal := fun mount member => ⟨"/p", by
          rw [List.mem_singleton.mp member]
          decide +kernel⟩
        distinct := List.nodup_singleton _
        sorted := List.pairwise_singleton _ _ } with
    pipelines := fun _ =>
      ⟨fun _ => some (Value.object [], 0), fun _ => .ok ⟨.serial, none, none, none, none, []⟩⟩ }

/-- A post that runs the pipeline under a key. -/
def runsPipeline (principal : Option Principal) : Message :=
  { Message.request .post "/p/x" "t" "trace" with
    headers := [("idempotency-key", "k")]
    principal := principal }

def administrator : Principal where
  id := "ada"
  roles := ["A"]
  kind := "user"
  extra := []

def adminSlot : Slot :=
  ("t|/p|POST|/p/x", "k")

/-- The request as it arrives at its mount. -/
def arrivedRun (principal : Option Principal) : Message :=
  { runsPipeline principal with url := (runsPipeline principal).url.applyMount "/p" }

theorem keyed_runsPipeline {principal : Option Principal} (routed :
    adminHost.arrive (runsPipeline principal) =
      .ok (.routed (arrivedRun principal) adminMount)) :
    Keyed adminHost (runsPipeline principal) (arrivedRun principal) adminMount adminSlot where
  routed := routed
  scope := rfl
  key := rfl
  short := by decide

/-- An anonymous caller gets the response recorded for an administrator, where the pipeline's
access refuses them by themselves. -/
theorem anonymous_caller_gets_administrators_response :
    (∃ resp, (dispatch (fun _ => "d") roomForTwo adminHost acknowledging promptMoment
        (runsPipeline none)
        (dispatch (fun _ => "d") roomForTwo adminHost acknowledging promptMoment
          (runsPipeline (some administrator)) .empty).2).1 = .ok resp ∧
      resp.header "idempotency-replayed" = some "true") ∧
    (dispatch (fun _ => "d") roomForTwo adminHost acknowledging promptMoment
      (runsPipeline none) .empty).1 =
        .error (.unauthorized "this mount requires authentication") ∧
    ¬ NeverBypasses (fun _ => "d") adminHost adminHost := by
  refine ⟨⟨_, rfl, by decide +kernel⟩, by decide +kernel, fun never => ?_⟩
  have keyed : Keyed adminHost (runsPipeline (some administrator))
      (arrivedRun (some administrator)) adminMount adminSlot :=
    keyed_runsPipeline (by decide +kernel)
  have keyed' : Keyed adminHost (runsPipeline none) (arrivedRun none) adminMount adminSlot :=
    keyed_runsPipeline (by decide +kernel)
  have governed : ∀ principal, PipelineService.Governed (adminHost.pipelines adminMount)
      (arrivedRun principal) (Value.object []) :=
    fun _ => ⟨rfl, 0, _, rfl, rfl⟩
  have records : Records (fun _ => "d") roomForTwo adminHost acknowledging promptMoment
      (runsPipeline (some administrator)) .empty (arrivedRun (some administrator)) adminMount
      adminSlot acknowledgement :=
    records_acknowledgement keyed fun _ => .inr ⟨_, governed _, by decide +kernel⟩
  obtain ⟨arrived, mount, routed, -, unrefused⟩ := never roomForTwo acknowledging promptMoment
    promptMoment (runsPipeline (some administrator)) (runsPipeline none) .empty _ _ adminMount
    (arrivedRun none) adminMount adminSlot acknowledgement ⟨rfl, rfl, rfl, rfl, rfl⟩ records rfl
    ⟨keyed', by decide +kernel⟩
  rw [keyed'.routed] at routed
  cases routed
  exact absurd (unrefused rfl _ (governed none)) (by decide +kernel)

end Rs2Runtime.Runtime
