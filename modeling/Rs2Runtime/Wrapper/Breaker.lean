import Rs2Runtime.Data.Table
import Rs2Runtime.Message.Error

/-!
Contract: the circuit breaker of a tenant.

Owns:
- the breaker's table of recent breaches, its check and its recording of a breach;
- the ledger of everything counted since the breaker was last closed, which it refines;
- when a check is refused, and what the table retains;
- that tenants' breakers are independent.

## What the count starts from

The count of breaches starts again at a check that finds the cooldown elapsed, not when the
breaker opens: a breach of a request that is still in flight keeps an open breaker open.
-/

namespace Rs2Runtime.Wrapper

open Text Data Json

/-- The limits the breaker reads; durations and times are in nanoseconds. -/
structure BreakerLimits where
  threshold : Nat
  window : Nat
  cooldown : Nat

structure BreakerState where
  recentBreaches : List Nat
  openUntil : Option Nat
  deriving DecidableEq, Repr

abbrev TenantBreaker := Table Str BreakerState

namespace TenantBreaker

def tripped (tenant : Str) (remaining : Nat) : RsError :=
  { RsError.limitExceeded "tenant_breaker" (.num (.int 1)) (.num (.int 0)) with
    detail := ("tenant '" : Str) ++ tenant ++
      ("' tripped the limit-breach circuit breaker; retry later" : Str)
    retryAfterMs := some (remaining / 1000000 % 2 ^ 64) }

/-- Fail fast while the breaker is open; close it once the cooldown has elapsed. -/
def check (breaker : TenantBreaker) (tenant : Str) (now : Nat) :
    Except RsError Unit × TenantBreaker :=
  match (breaker.find tenant).bind BreakerState.openUntil with
  | none => (.ok (), breaker)
  | some closes =>
    if now < closes then (.error (tripped tenant (closes - now)), breaker)
    else (.ok (), breaker.put tenant ⟨[], none⟩)

/-- Drop the breaches at the front that are older than the window. -/
def prune (window now : Nat) (breaches : List Nat) : List Nat :=
  breaches.dropWhile fun time => window < now - time

def recordBreach (limits : BreakerLimits) (breaker : TenantBreaker) (tenant : Str) (now : Nat) :
    TenantBreaker :=
  let state := (breaker.find tenant).getD ⟨[], none⟩
  let recent := prune limits.window now (state.recentBreaches ++ [now])
  breaker.put tenant
    { recentBreaches := recent
      openUntil :=
        if limits.threshold ≤ recent.length % 2 ^ 32 then some (now + limits.cooldown)
        else state.openUntil }

inductive Action where
  | check
  | recordBreach
  deriving DecidableEq, Repr

structure Event where
  tenant : Str
  time : Nat
  action : Action

def apply (limits : BreakerLimits) (breaker : TenantBreaker) (event : Event) : TenantBreaker :=
  match event.action with
  | .check => (breaker.check event.tenant event.time).2
  | .recordBreach => breaker.recordBreach limits event.tenant event.time

def run (limits : BreakerLimits) (events : List Event) : TenantBreaker :=
  events.foldl (apply limits) .empty

/-! ## The ledger -/

/-- The breaches recorded since the breaker was last closed, and the last of them that opened
it. -/
structure Ledger where
  counted : List Nat
  opened : Option Nat

/-- The breaches within the window that ends at a time reach the threshold. -/
def Reached (limits : BreakerLimits) (breaches : List Nat) (now : Nat) : Prop :=
  limits.threshold ≤ (breaches.filter fun time => now - time ≤ limits.window).length % 2 ^ 32

instance (limits : BreakerLimits) (breaches : List Nat) (now : Nat) :
    Decidable (Reached limits breaches now) :=
  inferInstanceAs (Decidable (_ ≤ _))

def Ledger.apply (limits : BreakerLimits) (tenant : Str) (ledger : Ledger) (event : Event) :
    Ledger :=
  if event.tenant = tenant then
    match event.action with
    | .check =>
      if ∃ opening ∈ ledger.opened, opening + limits.cooldown ≤ event.time then ⟨[], none⟩
      else ledger
    | .recordBreach =>
      let counted := ledger.counted ++ [event.time]
      ⟨counted, if Reached limits counted event.time then some event.time else ledger.opened⟩
  else
    ledger

def ledger (limits : BreakerLimits) (tenant : Str) (events : List Event) : Ledger :=
  events.foldl (Ledger.apply limits tenant) ⟨[], none⟩

/-! ## The breaker keeps the end of its ledger -/

theorem dropWhile_dropWhile_append {α : Type} {weaker stronger : α → Bool}
    (implies : ∀ item, stronger item = true → weaker item = true) (items rest : List α) :
    (items.dropWhile stronger ++ rest).dropWhile weaker = (items ++ rest).dropWhile weaker := by
  induction items with
  | nil => rfl
  | cons item items ih =>
    cases dropped : stronger item with
    | true =>
      rw [List.dropWhile_cons_of_pos dropped, ih, List.cons_append,
        List.dropWhile_cons_of_pos (implies item dropped)]
    | false => rw [List.dropWhile_cons_of_neg (by simp [dropped])]

/-- Of breaches in order, those within the window are what pruning leaves. -/
theorem prune_eq_filter {breaches : List Nat} (ordered : breaches.Pairwise (· ≤ ·))
    (window now : Nat) :
    prune window now breaches = breaches.filter fun time => now - time ≤ window := by
  unfold prune
  induction breaches with
  | nil => rfl
  | cons time breaches ih =>
    obtain ⟨later, ordered⟩ := List.pairwise_cons.mp ordered
    by_cases old : window < now - time
    · rw [List.dropWhile_cons_of_pos (by simpa only [decide_eq_true_eq] using old), ih ordered,
        List.filter_cons_of_neg (by simpa only [decide_eq_true_eq, not_le] using old)]
    · have kept : ∀ item ∈ time :: breaches, now - item ≤ window := by
        intro item member
        rcases List.mem_cons.mp member with rfl | member
        · omega
        · have after := later item member
          omega
      rw [List.dropWhile_cons_of_neg (by simpa only [decide_eq_true_eq] using old),
        List.filter_eq_self.mpr]
      exact fun item member => decide_eq_true (kept item member)

/-- What a tenant's row keeps of its ledger, at a time not before any event. -/
structure Tracks (limits : BreakerLimits) (state : BreakerState) (ledger : Ledger) (now : Nat) :
    Prop where
  recent : ∃ newest ≤ now, (∀ time ∈ ledger.counted, time ≤ newest) ∧
    state.recentBreaches = prune limits.window newest ledger.counted
  openUntil : state.openUntil = ledger.opened.map (· + limits.cooldown)
  ordered : ledger.counted.Pairwise (· ≤ ·)
  opened : ∀ opening ∈ ledger.opened, opening ≤ now

/-- The row of a tenant; one that was never touched is empty. -/
def row (breaker : TenantBreaker) (tenant : Str) : BreakerState :=
  (breaker.find tenant).getD ⟨[], none⟩

theorem openUntil_row (breaker : TenantBreaker) (tenant : Str) :
    (breaker.row tenant).openUntil = (breaker.find tenant).bind BreakerState.openUntil := by
  unfold row
  cases breaker.find tenant <;> rfl

variable {event : Event}

section Steps

variable {limits : BreakerLimits} {breaker : TenantBreaker} {tenant : Str} {ledger : Ledger}
  {now : Nat}

theorem tracks_closed (limits : BreakerLimits) (now : Nat) :
    Tracks limits ⟨[], none⟩ ⟨[], none⟩ now where
  recent := ⟨now, le_rfl, nofun, rfl⟩
  openUntil := rfl
  ordered := List.Pairwise.nil
  opened := nofun

theorem Tracks.later {state : BreakerState} (tracks : Tracks limits state ledger now) {later : Nat}
    (after : now ≤ later) : Tracks limits state ledger later where
  recent := by
    obtain ⟨newest, bound, rest⟩ := tracks.recent
    exact ⟨newest, bound.trans after, rest⟩
  openUntil := tracks.openUntil
  ordered := tracks.ordered
  opened := fun opening member => (tracks.opened opening member).trans after

theorem tracks_check (tracks : Tracks limits (breaker.row tenant) ledger event.time)
    (same : event.tenant = tenant) (checked : event.action = .check) :
    Tracks limits ((breaker.apply limits event).row tenant) (ledger.apply limits tenant event)
      event.time := by
  have opens := tracks.openUntil
  rw [openUntil_row] at opens
  unfold apply check Ledger.apply
  rw [if_pos same, checked, same]
  dsimp only
  rw [opens]
  cases opened : ledger.opened with
  | none =>
    rw [if_neg (by simp)]
    exact tracks
  | some opening =>
    dsimp only [Option.map]
    by_cases elapsed : opening + limits.cooldown ≤ event.time
    · rw [if_neg (not_lt.mpr elapsed), if_pos ⟨opening, rfl, elapsed⟩]
      rw [row, Table.find_put, if_pos rfl]
      exact tracks_closed limits event.time
    · rw [if_pos (not_le.mp elapsed), if_neg (by simpa using elapsed)]
      exact tracks

theorem tracks_recordBreach (tracks : Tracks limits (breaker.row tenant) ledger event.time)
    (same : event.tenant = tenant) (recorded : event.action = .recordBreach) :
    Tracks limits ((breaker.apply limits event).row tenant) (ledger.apply limits tenant event)
      event.time := by
  obtain ⟨newest, bound, below, kept⟩ := tracks.recent
  have ordered : (ledger.counted ++ [event.time]).Pairwise (· ≤ ·) := by
    rw [List.pairwise_append]
    refine ⟨tracks.ordered, List.pairwise_singleton _ _, ?_⟩
    intro time member other last
    rw [List.mem_singleton.mp last]
    exact (below time member).trans bound
  -- What an earlier breach pruned, this one prunes as well.
  have pruned : prune limits.window event.time ((breaker.row tenant).recentBreaches ++ [event.time])
      = prune limits.window event.time (ledger.counted ++ [event.time]) := by
    rw [kept]
    apply dropWhile_dropWhile_append
    intro time old
    rw [decide_eq_true_eq] at old ⊢
    omega
  unfold apply recordBreach Ledger.apply
  rw [if_pos same, recorded, same]
  dsimp only
  rw [row, Table.find_put, if_pos rfl]
  dsimp only [Option.getD_some]
  rw [show (breaker.find tenant).getD ⟨[], none⟩ = breaker.row tenant from rfl, pruned]
  refine ⟨⟨event.time, le_rfl, ?_, rfl⟩, ?_, ordered, ?_⟩
  · intro time member
    rcases List.mem_append.mp member with member | member
    · exact (below time member).trans bound
    · exact (List.mem_singleton.mp member).le
  · rw [prune_eq_filter ordered]
    by_cases reached : Reached limits (ledger.counted ++ [event.time]) event.time
    · rw [if_pos reached]
      exact if_pos reached
    · rw [if_neg reached, ← tracks.openUntil]
      exact if_neg reached
  · intro opening member
    split at member
    · exact (Option.some.inj member).ge
    · exact tracks.opened opening member

theorem row_apply_of_ne (other : event.tenant ≠ tenant) :
    (breaker.apply limits event).row tenant = breaker.row tenant := by
  unfold apply check recordBreach row
  split
  · split
    · rfl
    · split
      · rfl
      · rw [Table.find_put, if_neg other.symm]
  · rw [Table.find_put, if_neg other.symm]

/-- The step lemma: an event keeps the row in step with the ledger. -/
theorem Tracks.apply (tracks : Tracks limits (breaker.row tenant) ledger event.time) :
    Tracks limits ((breaker.apply limits event).row tenant) (ledger.apply limits tenant event)
      event.time := by
  by_cases same : event.tenant = tenant
  · cases kind : event.action with
    | check => exact tracks_check tracks same kind
    | recordBreach => exact tracks_recordBreach tracks same kind
  · rw [row_apply_of_ne same, Ledger.apply, if_neg same]
    exact tracks

end Steps

/-- The run lemma: after events in order, a tenant's row is the end of its ledger. -/
theorem tracks_run (limits : BreakerLimits) (tenant : Str) {events : List Event} {now : Nat}
    (ordered : (events.map Event.time ++ [now]).Pairwise (· ≤ ·)) :
    Tracks limits ((run limits events).row tenant) (ledger limits tenant events) now := by
  induction events using List.reverseRecOn generalizing now with
  | nil => exact tracks_closed limits now
  | append_singleton events event ih =>
    rw [List.map_append, List.map_singleton, List.pairwise_append] at ordered
    obtain ⟨earlier, _, after⟩ := ordered
    have step := (ih earlier).apply
    unfold run ledger
    rw [List.foldl_concat, List.foldl_concat]
    exact step.later (after event.time (by simp) now (by simp))

/-! ## When a check is refused -/

/-- A breach of the tenant that reaches the threshold together with those counted before it. -/
def Opens (limits : BreakerLimits) (tenant : Str) (earlier : List Event) (event : Event) : Prop :=
  event.tenant = tenant ∧ event.action = .recordBreach ∧
    Reached limits ((ledger limits tenant earlier).counted ++ [event.time]) event.time

theorem ledger_concat (limits : BreakerLimits) (tenant : Str) (events : List Event)
    (event : Event) :
    ledger limits tenant (events ++ [event]) =
      (ledger limits tenant events).apply limits tenant event :=
  List.foldl_concat ..

/-- The ledger names a breach that opened the breaker. -/
theorem exists_opens {limits : BreakerLimits} {tenant : Str} {events : List Event} {opening : Nat}
    (opened : (ledger limits tenant events).opened = some opening) :
    ∃ earlier event later, events = earlier ++ event :: later ∧ event.time = opening ∧
      Opens limits tenant earlier event := by
  induction events using List.reverseRecOn with
  | nil => cases opened
  | append_singleton events event ih =>
    have inherited : (ledger limits tenant events).opened = some opening →
        ∃ earlier other later, events ++ [event] = earlier ++ other :: later ∧
          other.time = opening ∧ Opens limits tenant earlier other := by
      intro before
      obtain ⟨earlier, other, later, rfl, sameTime, opens⟩ := ih before
      exact ⟨earlier, other, later ++ [event], by simp, sameTime, opens⟩
    rw [ledger_concat, Ledger.apply] at opened
    split at opened
    next same =>
      split at opened
      next =>
        split at opened
        · cases opened
        · exact inherited opened
      next recorded =>
        dsimp only at opened
        split at opened
        next reached =>
          exact ⟨events, event, [], rfl, Option.some.inj opened, same, recorded, reached⟩
        next => exact inherited opened
    next => exact inherited opened

/-- A breaker that was opened stays open during the cooldown. -/
theorem opened_of_opens {limits : BreakerLimits} {tenant : Str} {earlier later : List Event}
    (opens : Opens limits tenant earlier event) {now : Nat}
    (ordered : (event :: later).Pairwise fun first second => first.time ≤ second.time)
    (before : ∀ other ∈ later, other.time ≤ now) (cooling : now < event.time + limits.cooldown) :
    ∃ opening, (ledger limits tenant (earlier ++ event :: later)).opened = some opening ∧
      event.time ≤ opening := by
  obtain ⟨same, recorded, reached⟩ := opens
  have after : ∀ other ∈ later, event.time ≤ other.time := (List.pairwise_cons.mp ordered).1
  clear ordered
  induction later using List.reverseRecOn with
  | nil =>
    refine ⟨event.time, ?_, le_rfl⟩
    rw [ledger_concat, Ledger.apply, if_pos same, recorded]
    exact if_pos reached
  | append_singleton later last ih =>
    obtain ⟨opening, opened, notBefore⟩ := ih
      (fun other member => before other (by simp [member]))
      (fun other member => after other (by simp [member]))
    have lastAfter : event.time ≤ last.time := after last (by simp)
    have lastBefore : last.time ≤ now := before last (by simp)
    rw [show earlier ++ event :: (later ++ [last]) = (earlier ++ event :: later) ++ [last] by simp,
      ledger_concat, Ledger.apply]
    split
    · split
      · rw [if_neg]
        · exact ⟨opening, opened, notBefore⟩
        · rintro ⟨other, member, elapsed⟩
          rw [opened] at member
          cases member
          omega
      · dsimp only
        split
        · exact ⟨last.time, rfl, lastAfter⟩
        · exact ⟨opening, opened, notBefore⟩
    · exact ⟨opening, opened, notBefore⟩

theorem refused_iff (breaker : TenantBreaker) (tenant : Str) (now : Nat) :
    (∃ e, (breaker.check tenant now).1 = .error e) ↔
      ∃ closes ∈ (breaker.row tenant).openUntil, now < closes := by
  rw [openUntil_row]
  unfold check
  cases (breaker.find tenant).bind BreakerState.openUntil with
  | none => simp
  | some closes =>
    by_cases cooling : now < closes
    · simp [cooling]
    · simp [cooling]

/-- The breaches of a row are in order, and within one window of the newest. -/
def Retained (limits : BreakerLimits) (breaches : List Nat) : Prop :=
  breaches.Pairwise (· ≤ ·) ∧
    ∀ newest ∈ breaches.getLast?, ∀ time ∈ breaches, newest - time ≤ limits.window

theorem Tracks.retained {limits : BreakerLimits} {state : BreakerState} {ledger : Ledger} {now : Nat}
    (tracks : Tracks limits state ledger now) : Retained limits state.recentBreaches := by
  obtain ⟨newest, _, below, kept⟩ := tracks.recent
  rw [kept, prune_eq_filter tracks.ordered]
  refine ⟨tracks.ordered.filter _, fun last isLast time member => ?_⟩
  have bound := below last (List.mem_of_mem_filter (List.mem_of_getLast? isLast))
  have within := (List.mem_filter.mp member).2
  rw [decide_eq_true_eq] at within
  omega

/-- For every sequence of checks and recorded breaches of any tenants at times in order: a check
of a tenant is refused exactly during the cooldown after one of its breaches that reached the
threshold, counted since a check last found the cooldown elapsed; and the breaches retained are
in order and within one window of the newest. -/
theorem breaker_opens_at_threshold (limits : BreakerLimits) (tenant : Str) (events : List Event)
    (now : Nat) (ordered : (events.map Event.time ++ [now]).Pairwise (· ≤ ·)) :
    ((∃ e, ((run limits events).check tenant now).1 = .error e) ↔
      ∃ earlier event later, events = earlier ++ event :: later ∧
        Opens limits tenant earlier event ∧ event.time ≤ now ∧
          now < event.time + limits.cooldown) ∧
      Retained limits ((run limits events).row tenant).recentBreaches := by
  have tracks := tracks_run limits tenant ordered
  refine ⟨?_, tracks.retained⟩
  rw [refused_iff, tracks.openUntil]
  constructor
  · rintro ⟨closes, member, cooling⟩
    obtain ⟨opening, opened, rfl⟩ := Option.map_eq_some_iff.mp member
    obtain ⟨earlier, event, later, split, rfl, opens⟩ := exists_opens opened
    exact ⟨earlier, event, later, split, opens, tracks.opened _ opened, cooling⟩
  · rintro ⟨earlier, event, later, rfl, opens, _, cooling⟩
    rw [List.pairwise_append, List.pairwise_map, List.pairwise_append] at ordered
    obtain ⟨⟨_, ordered, _⟩, _, before⟩ := ordered
    obtain ⟨opening, opened, notBefore⟩ := opened_of_opens opens ordered
      (fun other member => before other.time (List.mem_map_of_mem (by simp [member])) now (by simp))
      cooling
    exact ⟨opening + limits.cooldown, by rw [opened]; rfl, by omega⟩

/-- The breaches that reach the threshold if the count starts again whenever one does. -/
def openingsAfresh (limits : BreakerLimits) : List Nat → List Nat → List Nat
  | _, [] => []
  | counted, time :: later =>
    if Reached limits (counted ++ [time]) time then time :: openingsAfresh limits [] later
    else openingsAfresh limits (counted ++ [time]) later

theorem two_breaches_open_for_the_cooldown :
    ((∃ e, ((run ⟨2, 10, 5⟩ [⟨"t", 0, .recordBreach⟩, ⟨"t", 1, .recordBreach⟩]).check "t" 5).1 =
        .error e) ↔
      ∃ earlier event later,
        [⟨"t", 0, .recordBreach⟩, ⟨"t", 1, .recordBreach⟩] = earlier ++ event :: later ∧
          Opens ⟨2, 10, 5⟩ "t" earlier event ∧ event.time ≤ 5 ∧ 5 < event.time + 5) ∧
      Retained ⟨2, 10, 5⟩
        ((run ⟨2, 10, 5⟩ [⟨"t", 0, .recordBreach⟩, ⟨"t", 1, .recordBreach⟩]).row
          "t").recentBreaches :=
  breaker_opens_at_threshold ⟨2, 10, 5⟩ "t" [⟨"t", 0, .recordBreach⟩, ⟨"t", 1, .recordBreach⟩] 5
    (by decide)

/-- A breach at 3 of a request in flight keeps the breaker open past the cooldown of the opening
at 1, though only one breach has been counted since. -/
theorem breach_while_open_extends :
    (∃ e, ((run ⟨2, 10, 5⟩ ([0, 1, 3].map fun time => ⟨"t", time, .recordBreach⟩)).check "t" 7).1 =
        .error e) ∧
      ∀ time ∈ openingsAfresh ⟨2, 10, 5⟩ [] [0, 1, 3], ¬ 7 < time + 5 :=
  ⟨⟨_, rfl⟩, by decide⟩

/-! ## Tenants apart -/

/-- A check answers from the row of its tenant, and changes it from that row alone. -/
theorem check_congr {left right : TenantBreaker} {tenant : Str}
    (same : left.row tenant = right.row tenant) (now : Nat) :
    (left.check tenant now).1 = (right.check tenant now).1 ∧
      (left.check tenant now).2.row tenant = (right.check tenant now).2.row tenant := by
  have opens := congrArg BreakerState.openUntil same
  rw [openUntil_row, openUntil_row] at opens
  unfold check
  rw [opens]
  cases (right.find tenant).bind BreakerState.openUntil with
  | none => exact ⟨rfl, same⟩
  | some closes =>
    dsimp only
    split
    · exact ⟨rfl, same⟩
    · refine ⟨rfl, ?_⟩
      simp only [row, Table.find_put, if_pos]

theorem row_apply_congr {limits : BreakerLimits} {left right : TenantBreaker}
    (same : left.row event.tenant = right.row event.tenant) :
    (left.apply limits event).row event.tenant = (right.apply limits event).row event.tenant := by
  unfold apply
  cases event.action with
  | check => exact (check_congr same event.time).2
  | recordBreach =>
    unfold row at same
    simp only [recordBreach, row, Table.find_put, if_pos, same]

theorem row_run_filter (limits : BreakerLimits) (tenant : Str) (events : List Event) :
    (run limits events).row tenant =
      (run limits (events.filter (·.tenant = tenant))).row tenant := by
  induction events using List.reverseRecOn with
  | nil => rfl
  | append_singleton events event ih =>
    rw [List.filter_append]
    unfold run at ih ⊢
    rw [List.foldl_concat]
    by_cases own : event.tenant = tenant
    · subst own
      rw [List.filter_cons_of_pos (by simp), List.filter_nil, List.foldl_concat]
      exact row_apply_congr ih
    · rw [row_apply_of_ne own, List.filter_cons_of_neg (by simpa using own), List.filter_nil,
        List.append_nil]
      exact ih

/-- Whatever other tenants do, at whatever times and between whichever events, every check of a
tenant has the answer it would have if there were no other tenant. -/
theorem checks_ignore_other_tenants (limits : BreakerLimits) (tenant : Str) (events : List Event)
    (now : Nat) :
    ((run limits events).check tenant now).1 =
      ((run limits (events.filter (·.tenant = tenant))).check tenant now).1 :=
  (check_congr (row_run_filter limits tenant events) now).1

end TenantBreaker

end Rs2Runtime.Wrapper
