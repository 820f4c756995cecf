import Rs2Runtime.Runtime.Dispatch
import Rs2Runtime.Wrapper.CachePolicy

/-!
Contract: whether what is called publicly cacheable may be read by anyone.

Owns:
- the access checks on the way of a request at its mount, as the accesses they ask;
- which accesses let a caller without credentials through;
- the exact condition under which a response that is called public is open to everyone;
- reads of mounts other than those of pipelines meet it.

Does not own: requests that a service sends on, which have ways of their own.

## Why a condition

A policy looks at who may read the mount.  A pipeline may have an access of its own, a request
may be no read, and a service may call its response public by itself.
-/

namespace Rs2Runtime.Wrapper

open Text Data Json

/-! ## Accesses that are open to everyone -/

/-- The tokens of a role specification give a path to everyone. -/
def NamesAll (path : Str) : List Str → Prop
  | [] => False
  | [role] => role = "all"
  | role :: next :: rest =>
    if next.head? = some '/' then
      role = "all" ∧ inScope next path = true ∨ NamesAll path rest
    else
      role = "all" ∨ NamesAll path (next :: rest)

/-- An access that lets everyone do an action at a path. -/
def OpenTo (access : Option Value) (action : Action) (path : Str) : Prop :=
  match access with
  | some (.str policy) => policy = "open"
  | some (.obj spec) => NamesAll path (words (resolveRole spec action))
  | _ => False

/-- The request with no credentials: anyone's, from outside. -/
def anonymous (msg : Message) : Message :=
  { msg with principal := none, source := .external }

theorem holdsRole_none (role : Str) : holdsRole none role = true ↔ role = "all" := by
  unfold holdsRole
  split_ifs with everyone
  · exact ⟨fun _ => everyone, fun _ => rfl⟩
  · exact ⟨nofun, fun same => absurd same everyone⟩
  · exact ⟨nofun, fun same => absurd same everyone⟩

theorem satisfiesTokens_none (path : Str) (tokens : List Str) :
    satisfiesTokens none path tokens = true ↔ NamesAll path tokens := by
  induction tokens using NamesAll.induct with
  | case1 => exact ⟨nofun, nofun⟩
  | case2 role => exact holdsRole_none role
  | case3 role next rest path ih =>
    unfold satisfiesTokens NamesAll
    rw [if_pos path, if_pos path, Bool.or_eq_true, Bool.and_eq_true, holdsRole_none,
      ih]
    rfl
  | case4 role next rest plain ih =>
    unfold satisfiesTokens NamesAll
    rw [if_neg plain, if_neg plain, Bool.or_eq_true, holdsRole_none, ih]

/-- A role specification lets a caller without credentials through exactly where it is open. -/
theorem checkRoleSpec_anonymous (access : Value) (action : Action) (msg : Message) :
    checkRoleSpec access action (anonymous msg) = .ok () ↔
      OpenTo (some access) action msg.url.servicePath := by
  have outside : (anonymous msg).source ≠ .system := nofun
  unfold checkRoleSpec OpenTo
  rw [if_neg outside]
  cases access with
  | str policy =>
    dsimp only
    by_cases isOpen : policy = "open"
    · rw [if_pos isOpen]
      exact ⟨fun _ => isOpen, fun _ => rfl⟩
    · have refused : ∃ e, (if policy = "authenticated" then
          if (anonymous msg).principal.isSome then .ok ()
          else .error (RsError.unauthorized "this mount requires authentication")
        else .error (.internal (("unknown access policy '" : Str) ++ policy ++ ("'" : Str))) :
          Except RsError Unit) = .error e := by
        split
        · exact ⟨_, rfl⟩
        · exact ⟨_, rfl⟩
      obtain ⟨e, refusal⟩ := refused
      rw [if_neg isOpen, refusal]
      exact ⟨nofun, fun same => absurd same isOpen⟩
  | obj spec =>
    have satisfied := satisfiesTokens_none msg.url.servicePath (words (resolveRole spec action))
    dsimp only
    rw [← satisfied]
    by_cases named : satisfiesRoleSpec (resolveRole spec action) (anonymous msg) = true
    · rw [if_pos named]
      exact ⟨fun _ => named, fun _ => rfl⟩
    · rw [if_neg named]
      exact ⟨nofun, fun same => absurd same named⟩
  | null => exact ⟨nofun, nofun⟩
  | bool value => exact ⟨nofun, nofun⟩
  | num value => exact ⟨nofun, nofun⟩
  | arr items => exact ⟨nofun, nofun⟩

theorem checkMountAccess_anonymous (msg : Message) (mount : Mount) (action : Action) :
    checkMountAccess (anonymous msg) mount action = .ok () ↔
      OpenTo (mount.config.get? "access") action msg.url.servicePath := by
  unfold checkMountAccess
  cases mount.config.get? "access" with
  | none => exact ⟨nofun, nofun⟩
  | some access => exact checkRoleSpec_anonymous access action msg

/-- What the policy takes for openly readable is open to everyone's reads. -/
theorem openTo_read_of_openlyReadable {mount : Mount} {access : Value}
    (configured : mount.config.get? "access" = some access)
    (readable : CachePolicy.mountIsOpenlyReadable mount.config = true) (path : Str) :
    OpenTo (some access) .read path := by
  unfold CachePolicy.mountIsOpenlyReadable at readable
  rw [configured] at readable
  cases access with
  | str policy =>
    have isOpen : policy = "open" := of_decide_eq_true readable
    exact isOpen
  | obj spec =>
    have everyone : resolveRole spec .read = "all" := of_decide_eq_true readable
    show NamesAll path (words (resolveRole spec .read))
    rw [everyone]
    exact (rfl : ("all" : Str) = "all")
  | null => cases readable
  | bool value => cases readable
  | num value => cases readable
  | arr items => cases readable

end Rs2Runtime.Wrapper

namespace Rs2Runtime.Services.PipelineService

open Text Data Json Wrapper

/-- The access of every pipeline that governs the request is open to everyone. -/
def Open (pipelines : StoredPipelines) (config : Value) (msg : Message) : Prop :=
  ∀ doc, Governed pipelines msg doc →
    OpenTo (effectiveAccess (config.get? "access") (doc.get? "access")) (actionFor msg.method)
      msg.url.servicePath

theorem checkEffectiveAccess_anonymous (config doc : Value) (msg : Message) :
    checkEffectiveAccess config doc (anonymous msg) = .ok () ↔
      OpenTo (effectiveAccess (config.get? "access") (doc.get? "access")) (actionFor msg.method)
        msg.url.servicePath := by
  unfold checkEffectiveAccess
  cases effectiveAccess (config.get? "access") (doc.get? "access") with
  | none => exact ⟨nofun, nofun⟩
  | some access => exact checkRoleSpec_anonymous access (actionFor msg.method) msg

theorem unrefused_anonymous (pipelines : StoredPipelines) (config : Value) (msg : Message) :
    Unrefused pipelines config (anonymous msg) ↔ Open pipelines config msg := by
  have each (doc : Value) := checkEffectiveAccess_anonymous config doc msg
  constructor
  · exact fun unrefused doc governed => (each doc).mp (unrefused doc governed)
  · exact fun isOpen doc governed => (each doc).mpr (isOpen doc governed)

end Rs2Runtime.Services.PipelineService

namespace Rs2Runtime.Runtime

open Text Data Json Wrapper Router
open Guest Idempotency Rs2Runtime.Services

/-! ## The way of a request -/

/-- Where the way of a request ends at its mount. -/
inductive Stop where
  | probe
  | upgrade
  | sockets
  | service
  deriving DecidableEq

namespace Host

def stopOf (host : Host) (msg : Message) (mount : Mount) : Stop :=
  if msg.method = .options then
    .probe
  else
    match webSocketConfigOf host.codec mount.config mount.service with
    | none => .service
    | some _ =>
      if msg.source = .external ∧ msg.method = .get ∧ isWebsocketUpgrade msg ∧ host.sockets then
        .upgrade
      else if msg.url.serviceSegments.head? = some (".sockets" : Str) then
        .sockets
      else
        .service

/-- Every access check on the way of a request that has come to its mount lets it through. -/
def AdmittedAt (host : Host) (msg : Message) (mount : Mount) : Prop :=
  checkAccess msg mount = .ok () ∧
    match host.stopOf msg mount with
    | .probe => True
    | .upgrade => mount.service = "pipeline" → checkMountAccess msg mount .read = .ok ()
    | .sockets => msg.method ≠ .get ∧ msg.method ≠ .head →
        checkMountAccess msg mount .write = .ok ()
    | .service => mount.service = "pipeline" →
        PipelineService.Unrefused (host.pipelines mount) mount.config msg

/-- Every access that is asked on the way is open to everyone. -/
def OpenAt (host : Host) (msg : Message) (mount : Mount) : Prop :=
  (mount.service = "pipeline" ∧ !isInstructionPath msg.url ∨
      OpenTo (mount.config.get? "access") (actionFor msg.method) msg.url.servicePath) ∧
    match host.stopOf (anonymous msg) mount with
    | .probe => True
    | .upgrade => mount.service = "pipeline" →
        OpenTo (mount.config.get? "access") .read msg.url.servicePath
    | .sockets => msg.method ≠ .get ∧ msg.method ≠ .head →
        OpenTo (mount.config.get? "access") .write msg.url.servicePath
    | .service => mount.service = "pipeline" →
        PipelineService.Open (host.pipelines mount) mount.config msg

theorem checkAccess_anonymous (msg : Message) (mount : Mount) :
    checkAccess (anonymous msg) mount = .ok () ↔
      mount.service = "pipeline" ∧ !isInstructionPath msg.url ∨
        OpenTo (mount.config.get? "access") (actionFor msg.method) msg.url.servicePath := by
  unfold checkAccess
  by_cases deferred : mount.service = "pipeline" ∧ !isInstructionPath (anonymous msg).url
  · rw [if_pos deferred]
    exact ⟨fun _ => .inl deferred, fun _ => rfl⟩
  · rw [if_neg deferred]
    refine (checkMountAccess_anonymous msg mount (actionFor msg.method)).trans ?_
    exact ⟨.inr, fun isOpen => isOpen.resolve_left deferred⟩

theorem admittedAt_anonymous (host : Host) (msg : Message) (mount : Mount) :
    host.AdmittedAt (anonymous msg) mount ↔ host.OpenAt msg mount := by
  unfold AdmittedAt OpenAt
  rw [checkAccess_anonymous]
  refine and_congr_right fun _ => ?_
  cases host.stopOf (anonymous msg) mount with
  | probe => exact Iff.rfl
  | upgrade => exact imp_congr_right fun _ => checkMountAccess_anonymous msg mount .read
  | sockets => exact imp_congr_right fun _ => checkMountAccess_anonymous msg mount .write
  | service => exact imp_congr_right fun _ =>
    PipelineService.unrefused_anonymous (host.pipelines mount) mount.config msg

/-- The mount whose checks a request meets: it is answered neither as a preflight nor by
discovery. -/
def ChecksAt (host : Host) (msg : Message) (mount : Mount) : Prop :=
  host.cors msg = .ok none ∧ isDiscoveryPath msg.url.path = false ∧
    host.mounts.route msg.url.path = some mount

/-- The caching policy of a mount, applied to a response. -/
def policed (mount : Mount) (resp : Message) : Message :=
  (CachePolicy.fromConfig (mount.config.get? "caching")).apply resp
    (CachePolicy.mountIsOpenlyReadable mount.config)

/-- The host that applies the caching policies of its mounts. -/
def caching (host : Host) : Host :=
  { host with cachePolicy := policed }

end Host

/-! ## Responses before the policy -/

section Replies

variable (digest : Octets → Str) (limits : Limits) (host : Host) (services : Services)
  (moment : Moment)

/-- What a request is answered before a caching policy, and the mount whose policy applies. -/
def replyTo (msg : Message) (entries : Entries) : Except RsError (Message × Option Mount) :=
  match host.arrive msg with
  | .error e => .error e
  | .ok (.answered response) => .ok (response, none)
  | .ok (.routed msg mount) =>
    (match msg.header "idempotency-key" with
    | some key => (invokeKeyed digest limits host services moment mount msg key entries).1
    | none => invoke host services mount msg).map fun reply => (reply, some mount)

/-- A reply is called public: by itself, or by the policy of its mount. -/
def Published (reply : Message) (policed : Option Mount) : Prop :=
  CachePolicy.MarkedPublic reply ∨
    ∃ mount, policed = some mount ∧ reply.isOk = true ∧ ¬ CachePolicy.Keeps reply ∧
      (CachePolicy.fromConfig (mount.config.get? "caching")).Publishes
        (CachePolicy.mountIsOpenlyReadable mount.config)

/-- What is sent for a reply. -/
def sent (host : Host) (reply : Message × Option Mount) : Message :=
  match reply.2 with
  | some mount => if reply.1.isOk then host.cachePolicy mount reply.1 else reply.1
  | none => reply.1

theorem dispatch_eq (msg : Message) (entries : Entries) :
    (dispatch digest limits host services moment msg entries).1 =
      (replyTo digest limits host services moment msg entries).map (sent host) := by
  unfold dispatch replyTo
  rcases host.arrive msg with e | ⟨response⟩ | ⟨arrived, mount⟩
  · rfl
  · rfl
  · dsimp only
    cases arrived.header "idempotency-key" with
    | none =>
      dsimp only
      cases invoke host services mount arrived <;> rfl
    | some key =>
      dsimp only
      cases (invokeKeyed digest limits host services moment mount arrived key entries).1 <;> rfl

variable {digest limits host services moment}

theorem arrive_of_replyTo {msg reply : Message} {entries : Entries} {mount : Mount}
    (replied : replyTo digest limits host services moment msg entries = .ok (reply, some mount)) :
    ∃ arrived, host.arrive msg = .ok (.routed arrived mount) := by
  unfold replyTo at replied
  rcases came : host.arrive msg with e | ⟨response⟩ | ⟨arrived, at_⟩
  · rw [came] at replied
    cases replied
  · rw [came] at replied
    cases replied
  · rw [came] at replied
    obtain ⟨answer, -, same⟩ := Outcome.map_eq_ok.mp replied
    cases same
    exact ⟨arrived, rfl⟩

end Replies

/-- A mount that lets a request through has an access, unless it leaves the check to its
pipelines. -/
theorem configured_of_checkAccess {msg : Message} {mount : Mount}
    (apart : mount.service ≠ "pipeline") (passed : checkAccess msg mount = .ok ()) :
    ∃ access, mount.config.get? "access" = some access := by
  unfold checkAccess at passed
  rw [if_neg fun deferred => apart deferred.1] at passed
  unfold checkMountAccess at passed
  cases configured : mount.config.get? "access" with
  | some access => exact ⟨access, rfl⟩
  | none =>
    rw [configured] at passed
    dsimp only at passed
    split at passed <;> cases passed

theorem isOk_sent (host : Host) (reply : Message) (policed : Option Mount) :
    (sent host.caching (reply, policed)).isOk = reply.isOk := by
  cases policed with
  | none => rfl
  | some mount =>
    show (if reply.isOk then Host.policed mount reply else reply).isOk = reply.isOk
    split
    · exact CachePolicy.isOk_apply _ reply _
    · rfl

theorem markedPublic_sent (host : Host) (reply : Message) (policed : Option Mount) :
    CachePolicy.MarkedPublic (sent host.caching (reply, policed)) ↔ Published reply policed := by
  unfold Published
  cases policed with
  | none =>
    refine ⟨.inl, ?_⟩
    rintro (marked | ⟨mount, absent, -⟩)
    · exact marked
    · cases absent
  | some mount =>
    show CachePolicy.MarkedPublic (if reply.isOk then Host.policed mount reply else reply) ↔ _
    by_cases success : reply.isOk = true
    · rw [if_pos success]
      refine (CachePolicy.markedPublic_apply_iff _ reply _).trans (or_congr_right ?_)
      constructor
      · rintro ⟨untouched, publishes⟩
        exact ⟨mount, rfl, success, untouched, publishes⟩
      · rintro ⟨other, same, -, untouched, publishes⟩
        cases same
        exact ⟨untouched, publishes⟩
    · rw [if_neg success]
      refine ⟨.inl, ?_⟩
      rintro (marked | ⟨_, -, successful, -⟩)
      · exact marked
      · exact absurd successful success

/-! ## Public responses -/

section Responses

variable (digest : Octets → Str) (limits : Limits) (host : Host) (services : Services)
  (moment : Moment) (msg : Message) (entries : Entries)

/-- A successful response that is called public would be let through to anyone by every access
check on its way. -/
def PublicIsOpen : Prop :=
  ∀ resp, (dispatch digest limits host.caching services moment msg entries).1 = .ok resp →
    resp.isOk = true → CachePolicy.MarkedPublic resp →
      ∀ mount, host.ChecksAt msg mount →
        host.AdmittedAt (anonymous { msg with url := msg.url.applyMount mount.basePath }) mount

/-- The reply that the policy meets is published only where every access on the way is open. -/
def PublishedWhereOpen : Prop :=
  ∀ reply policed,
    replyTo digest limits host.caching services moment msg entries = .ok (reply, policed) →
      reply.isOk = true → Published reply policed →
        ∀ mount, host.ChecksAt msg mount →
          host.OpenAt { msg with url := msg.url.applyMount mount.basePath } mount

theorem public_response_is_open_iff :
    PublicIsOpen digest limits host services moment msg entries ↔
      PublishedWhereOpen digest limits host services moment msg entries := by
  unfold PublicIsOpen PublishedWhereOpen
  rw [dispatch_eq]
  simp only [Host.admittedAt_anonymous]
  constructor
  · intro isOpen reply policed replied success published
    refine isOpen (sent host.caching (reply, policed)) ?_ ?_ ?_
    · rw [replied]
      rfl
    · rwa [isOk_sent]
    · exact (markedPublic_sent host reply policed).mpr published
  · intro published resp answered success marked
    obtain ⟨⟨reply, policed⟩, replied, rfl⟩ := Outcome.map_eq_ok.mp answered
    rw [isOk_sent] at success
    exact published reply policed replied success ((markedPublic_sent host reply policed).mp marked)

/-- On mounts other than those of pipelines, a policy publishes only reads that are open. -/
theorem publishedWhereOpen_of_read {digest limits host services moment msg entries}
    (ordinary : ∀ mount : Mount, host.mounts.route msg.url.path = some mount → mount.service ≠ "pipeline")
    (reading : msg.method = .get ∨ msg.method = .head)
    (silent : ∀ reply policed,
      replyTo digest limits host.caching services moment msg entries = .ok (reply, policed) →
        ¬ CachePolicy.MarkedPublic reply) :
    PublishedWhereOpen digest limits host services moment msg entries := by
  intro reply policed replied success published mount checked
  obtain ⟨other, rfl, -, -, publishes⟩ := published.resolve_left (silent reply policed replied)
  obtain ⟨arrived, routed⟩ := arrive_of_replyTo replied
  obtain rfl : other = mount :=
    Option.some.inj ((Host.arrive_route routed).symm.trans checked.2.2)
  have apart : other.service ≠ "pipeline" := ordinary other checked.2.2
  obtain ⟨⟨principal, rfl⟩, passed⟩ := Host.arrive_eq_routed routed
  obtain ⟨access, configured⟩ := configured_of_checkAccess apart passed
  have action : actionFor msg.method = .read := by
    rcases reading with isGet | isHead
    · rw [isGet]
      rfl
    · rw [isHead]
      rfl
  refine ⟨.inr ?_, ?_⟩
  · show OpenTo _ (actionFor msg.method) _
    rw [action, configured]
    exact openTo_read_of_openlyReadable configured publishes.2.2 _
  · cases host.stopOf (anonymous { msg with url := msg.url.applyMount other.basePath }) other with
    | probe => trivial
    | upgrade => exact fun pipeline => absurd pipeline apart
    | sockets =>
      rintro ⟨notGet, notHead⟩
      exact absurd reading (not_or.mpr ⟨notGet, notHead⟩)
    | service => exact fun pipeline => absurd pipeline apart

end Responses

/-! ## A pipeline with an access of its own -/

/-- An open mount of pipelines that may be cached by anyone. -/
def cachedMount : Mount where
  basePath := "/p"
  service := "pipeline"
  config := Value.object [("access", .str "open"),
    ("caching", Value.object [("mode", .str "cache"), ("public", .bool true)])]

/-- The only pipeline asks for a login. -/
def cachedHost : Host :=
  { quietHost
      { mounts := [cachedMount]
        normal := fun mount member => ⟨"/p", by
          rw [List.mem_singleton.mp member]
          decide +kernel⟩
        distinct := List.nodup_singleton _
        sorted := List.pairwise_singleton _ _ } with
    pipelines := fun _ =>
      ⟨fun _ => some (Value.object [("access", .str "authenticated")], 0),
        fun _ => .ok ⟨.serial, none, none, none, none, []⟩⟩ }

def greeting : Services where
  serve := fun _ msg => .ok (msg.response 200 none)
  pipeline := fun _ => .answering fun msg => msg.response 200 none

def login : Principal where
  id := "ann"
  roles := ["U"]
  kind := "user"
  extra := []

/-- A read by someone who is logged in. -/
def loggedInRead : Message :=
  { Message.request .get "/p/x" "t" "trace" with principal := some login }

/-- The response to a caller who is logged in is called public, though the pipeline lets no one
else through. -/
theorem response_for_login_is_called_public :
    ¬ PublicIsOpen (fun _ => "d") ⟨1, 1, none⟩ cachedHost greeting ⟨0, 0, [], 0⟩ loggedInRead .empty := by
  intro isOpen
  obtain ⟨-, unrefused⟩ := isOpen _ rfl (by decide +kernel) (by decide +kernel) cachedMount
    ⟨by decide +kernel, by decide +kernel, by decide +kernel⟩
  have service : cachedHost.stopOf (anonymous { loggedInRead with
      url := loggedInRead.url.applyMount cachedMount.basePath }) cachedMount = .service := by
    decide +kernel
  rw [service] at unrefused
  have refused := unrefused rfl (Value.object [("access", .str "authenticated")])
    ⟨rfl, 0, _, rfl, rfl⟩
  exact absurd refused (by decide +kernel)

/-- An open mount of another kind, cached in the same way. -/
def openHost : Host :=
  quietHost
    { mounts := [{ cachedMount with service := "data" }]
      normal := fun mount member => ⟨"/p", by
        rw [List.mem_singleton.mp member]
        decide +kernel⟩
      distinct := List.nodup_singleton _
      sorted := List.pairwise_singleton _ _ }

theorem open_read_is_published_where_open :
    PublishedWhereOpen (fun _ => "d") ⟨1, 1, none⟩ openHost greeting ⟨0, 0, [], 0⟩ loggedInRead
      .empty := by
  apply publishedWhereOpen_of_read
  · intro mount routed
    have found : openHost.mounts.route loggedInRead.url.path =
        some { cachedMount with service := "data" } := by
      decide +kernel
    rw [found] at routed
    cases routed
    decide
  · exact .inl rfl
  · intro reply policed replied
    have quiet : (replyTo (fun _ => "d") ⟨1, 1, none⟩ openHost.caching greeting ⟨0, 0, [], 0⟩
        loggedInRead .empty).toOption.all
          (fun answer => ¬ CachePolicy.MarkedPublic answer.1) = true := by
      decide +kernel
    rw [replied] at quiet
    exact of_decide_eq_true quiet

end Rs2Runtime.Runtime
