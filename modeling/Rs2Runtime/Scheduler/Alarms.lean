import Rs2Runtime.Data.Table
import Rs2Runtime.Scheduler.Cron

/-!
Contract: schedules that are driven by the alarms of a tenant's object.

Owns:
- the occurrence that is due when an alarm is delivered, and the table of claims;
- what an alarm fires, and sequences of alarms;
- when no occurrence of a cron schedule is fired twice.

Does not own: arming the alarm, or whether a mount's previous fire is still running.
-/

namespace Rs2Runtime.Scheduler

open Text Data Json

/-! ## Occurrences -/

/-- How far back an alarm looks for a cron occurrence. -/
def cronGraceMs : Int :=
  5 * 60000

/-- Step back by minutes from `time` to the latest match that is not before `floor`. -/
def latestMatch (cron : CronSchedule) (floor : Int) : Nat → Int → Option Int
  | 0, _ => none
  | turns + 1, time =>
    if floor ≤ time then
      if cron.matches (time / 60000) then some time else latestMatch cron floor turns (time - 60000)
    else
      none

/-- The occurrence that is due when an alarm is delivered, in milliseconds from the epoch. -/
def dueOccurrenceMs (schedule : Schedule) (nowMs : Int) : Option Int :=
  match schedule with
  | .interval everyMs => some (intervalBucketMs nowMs everyMs)
  | .cron cron =>
    -- the grace is five minutes, so six minutes are looked at
    latestMatch cron (nowMs - cronGraceMs) 6 (nowMs / 60000 * 60000)

/-- How long a claim is remembered. -/
def claimTtlMs : Schedule → Int
  | .interval everyMs => max (everyMs * 2) 60000
  | .cron _ => 120000

/-! ## Claims -/

/-- When a claim of an occurrence under a key expires. -/
abbrev Claims := Table (Str × Int) Int

/-- Claim an occurrence, after a sweep of expired claims; true if this caller won. -/
def claimOccurrence (claims : Claims) (key : Str) (occurrenceMs ttlMs nowMs : Int) :
    Bool × Claims :=
  let swept := claims.retain fun _ expiresMs => nowMs ≤ expiresMs
  match swept.find (key, occurrenceMs) with
  | some _ => (false, swept)
  | none => (true, swept.put (key, occurrenceMs) (nowMs + ttlMs))

/-! ## Alarms -/

/-- A scheduled mount. -/
structure ScheduledMount where
  base : Str
  schedule : Schedule
  deriving DecidableEq, Repr

/-- The key of a mount's claims. -/
def claimKey (tenant base : Str) : Str :=
  tenant ++ ("|" : Str) ++ base

/-- A fire: the base of its mount, and the occurrence. -/
abbrev Fire := Str × Int

/-- One mount at an alarm: it fires if an occurrence is due and the claim is won. -/
def alarmMount (tenant : Str) (nowMs : Int) (mount : ScheduledMount)
    (state : List Fire × Claims) : List Fire × Claims :=
  match dueOccurrenceMs mount.schedule nowMs with
  | none => state
  | some occurrence =>
    let claim := claimOccurrence state.2 (claimKey tenant mount.base) occurrence
      (claimTtlMs mount.schedule) nowMs
    (if claim.1 then state.1 ++ [(mount.base, occurrence)] else state.1, claim.2)

/-- An alarm: every mount in turn. -/
def alarm (tenant : Str) (mounts : List ScheduledMount) (nowMs : Int) (claims : Claims) :
    List Fire × Claims :=
  mounts.foldl (fun state mount => alarmMount tenant nowMs mount state) ([], claims)

/-- What a sequence of alarms fires, each with its time. -/
def alarms (tenant : Str) (mounts : List ScheduledMount) : Claims → List Int →
    List (Int × List Fire)
  | _, [] => []
  | claims, nowMs :: times =>
    let result := alarm tenant mounts nowMs claims
    (nowMs, result.1) :: alarms tenant mounts result.2 times

/-! ## Live claims -/

/-- A claim that a sweep at this time keeps. -/
def live (nowMs : Int) (claims : Claims) (key : Str × Int) : Option Int :=
  (claims.find key).filter fun expiresMs => nowMs ≤ expiresMs

variable {claims : Claims} {base : Str}

theorem live_eq_some {nowMs expiresMs : Int} {key : Str × Int} :
    live nowMs claims key = some expiresMs ↔
      claims.find key = some expiresMs ∧ nowMs ≤ expiresMs := by
  rw [live, Option.filter_eq_some_iff, decide_eq_true_iff]

/-- What a claim does: it is won if there is no live one, and then is the live one; no other
live claim changes. -/
theorem claimOccurrence_spec {ttlMs : Int} (positive : 0 ≤ ttlMs) (claims : Claims) (key : Str)
    (occurrenceMs nowMs : Int) :
    ((claimOccurrence claims key occurrenceMs ttlMs nowMs).1 = true ↔
      live nowMs claims (key, occurrenceMs) = none) ∧
    ∀ other, live nowMs (claimOccurrence claims key occurrenceMs ttlMs nowMs).2 other =
      if other = (key, occurrenceMs) ∧ live nowMs claims (key, occurrenceMs) = none then
        some (nowMs + ttlMs)
      else
        live nowMs claims other := by
  have swept : ∀ other,
      (claims.retain fun _ expiresMs => decide (nowMs ≤ expiresMs)).find other =
        live nowMs claims other :=
    fun other => Table.find_retain _ _ _
  have twice : ∀ other, (live nowMs claims other).filter (fun expiresMs => nowMs ≤ expiresMs) =
      live nowMs claims other := by
    intro other
    rw [live, Option.filter_filter]
    simp only [Bool.and_self]
  unfold claimOccurrence
  dsimp only
  cases found : live nowMs claims (key, occurrenceMs) with
  | some expiresMs =>
    rw [(swept _).trans found]
    refine ⟨by simp, fun other => ?_⟩
    rw [if_neg (by simp)]
    exact (congrArg (Option.filter _) (swept other)).trans (twice other)
  | none =>
    rw [(swept _).trans found]
    refine ⟨by simp, fun other => ?_⟩
    dsimp only
    rw [live, Table.find_put]
    by_cases same : other = (key, occurrenceMs)
    · rw [if_pos same, if_pos ⟨same, rfl⟩, Option.filter_some, if_pos]
      exact decide_eq_true (by omega)
    · rw [if_neg same, if_neg fun both => same both.1]
      exact (congrArg (Option.filter _) (swept other)).trans (twice other)

theorem claimTtlMs_nonneg (schedule : Schedule) : 0 ≤ claimTtlMs schedule := by
  cases schedule with
  | interval everyMs => exact le_max_of_le_right (by decide)
  | cron cron => exact (by decide : (0 : Int) ≤ 120000)

theorem claimKey_injective (tenant : Str) : Function.Injective (claimKey tenant) := by
  intro first second same
  exact List.append_cancel_left same

variable (tenant : Str) (nowMs : Int)

/-- What one mount does at an alarm to an occurrence under its own key. -/
theorem alarmMount_own (mount : ScheduledMount) (state : List Fire × Claims) (occurrence : Int) :
    ((mount.base, occurrence) ∈ (alarmMount tenant nowMs mount state).1 ↔
      (mount.base, occurrence) ∈ state.1 ∨
        dueOccurrenceMs mount.schedule nowMs = some occurrence ∧
          live nowMs state.2 (claimKey tenant mount.base, occurrence) = none) ∧
    live nowMs (alarmMount tenant nowMs mount state).2 (claimKey tenant mount.base, occurrence) =
      if dueOccurrenceMs mount.schedule nowMs = some occurrence ∧
          live nowMs state.2 (claimKey tenant mount.base, occurrence) = none then
        some (nowMs + claimTtlMs mount.schedule)
      else
        live nowMs state.2 (claimKey tenant mount.base, occurrence) := by
  unfold alarmMount
  cases due : dueOccurrenceMs mount.schedule nowMs with
  | none => simp
  | some dueAt =>
    obtain ⟨won, lives⟩ := claimOccurrence_spec (claimTtlMs_nonneg mount.schedule) state.2
      (claimKey tenant mount.base) dueAt nowMs
    have keys : (claimKey tenant mount.base, occurrence) = (claimKey tenant mount.base, dueAt) ↔
        dueAt = occurrence := by
      rw [Prod.mk.injEq]
      exact ⟨fun same => same.2.symm, fun same => ⟨rfl, same.symm⟩⟩
    have after := lives (claimKey tenant mount.base, occurrence)
    simp only [keys] at after
    simp only [Option.some_inj]
    -- a claim of another occurrence leaves this one alone
    by_cases isDue : dueAt = occurrence
    · subst isDue
      refine ⟨?_, by simpa using after⟩
      rw [← won]
      split
      next wins => simp [wins]
      next loses => simp [loses]
    · refine ⟨?_, by simpa [isDue] using after⟩
      split
      · simp [isDue, Ne.symm isDue]
      · simp [isDue]

/-- A mount leaves the fires and the live claims of the others alone. -/
theorem alarmMount_frame {mount : ScheduledMount} (differs : mount.base ≠ base)
    (state : List Fire × Claims) (occurrence : Int) :
    ((base, occurrence) ∈ (alarmMount tenant nowMs mount state).1 ↔
      (base, occurrence) ∈ state.1) ∧
    live nowMs (alarmMount tenant nowMs mount state).2 (claimKey tenant base, occurrence) =
      live nowMs state.2 (claimKey tenant base, occurrence) := by
  unfold alarmMount
  cases due : dueOccurrenceMs mount.schedule nowMs with
  | none => exact ⟨Iff.rfl, rfl⟩
  | some dueAt =>
    obtain ⟨-, lives⟩ := claimOccurrence_spec (claimTtlMs_nonneg mount.schedule) state.2
      (claimKey tenant mount.base) dueAt nowMs
    have keys : (claimKey tenant base, occurrence) ≠ (claimKey tenant mount.base, dueAt) := by
      intro same
      exact differs (claimKey_injective tenant (Prod.mk.inj same).1).symm
    have after := lives (claimKey tenant base, occurrence)
    rw [if_neg fun both => keys both.1] at after
    refine ⟨?_, after⟩
    dsimp only
    split
    · simp [Ne.symm differs]
    · exact Iff.rfl

theorem foldl_alarmMount_frame {mounts : List ScheduledMount}
    (absent : base ∉ mounts.map ScheduledMount.base) (state : List Fire × Claims)
    (occurrence : Int) :
    let after := mounts.foldl (fun state mount => alarmMount tenant nowMs mount state) state
    ((base, occurrence) ∈ after.1 ↔ (base, occurrence) ∈ state.1) ∧
      live nowMs after.2 (claimKey tenant base, occurrence) =
        live nowMs state.2 (claimKey tenant base, occurrence) := by
  induction mounts generalizing state with
  | nil => exact ⟨Iff.rfl, rfl⟩
  | cons mount mounts ih =>
    rw [List.map_cons, List.mem_cons, not_or] at absent
    have first := alarmMount_frame tenant nowMs (Ne.symm absent.1) state
      occurrence
    have rest := ih absent.2 (alarmMount tenant nowMs mount state)
    exact ⟨rest.1.trans first.1, rest.2.trans first.2⟩

/-- What an alarm does to an occurrence of one of its mounts. -/
theorem alarm_spec {mounts : List ScheduledMount}
    (distinct : (mounts.map ScheduledMount.base).Nodup) {mount : ScheduledMount}
    (member : mount ∈ mounts) (claims : Claims) (occurrence : Int) :
    ((mount.base, occurrence) ∈ (alarm tenant mounts nowMs claims).1 ↔
      dueOccurrenceMs mount.schedule nowMs = some occurrence ∧
        live nowMs claims (claimKey tenant mount.base, occurrence) = none) ∧
    live nowMs (alarm tenant mounts nowMs claims).2 (claimKey tenant mount.base, occurrence) =
      if dueOccurrenceMs mount.schedule nowMs = some occurrence ∧
          live nowMs claims (claimKey tenant mount.base, occurrence) = none then
        some (nowMs + claimTtlMs mount.schedule)
      else
        live nowMs claims (claimKey tenant mount.base, occurrence) := by
  obtain ⟨before, after, rfl⟩ := List.append_of_mem member
  rw [List.map_append, List.map_cons, List.nodup_append, List.nodup_cons] at distinct
  obtain ⟨-, ⟨notAfter, -⟩, apart⟩ := distinct
  have notBefore : mount.base ∉ before.map ScheduledMount.base :=
    fun inBefore => apart _ inBefore _ List.mem_cons_self rfl
  unfold alarm
  rw [List.foldl_append, List.foldl_cons]
  have first := foldl_alarmMount_frame tenant nowMs notBefore ([], claims)
    occurrence
  have own := alarmMount_own tenant nowMs mount
    (before.foldl (fun state mount => alarmMount tenant nowMs mount state) ([], claims)) occurrence
  have last := foldl_alarmMount_frame tenant nowMs notAfter
    (alarmMount tenant nowMs mount
      (before.foldl (fun state mount => alarmMount tenant nowMs mount state) ([], claims)))
    occurrence
  dsimp only at first last
  rw [first.1, first.2] at own
  refine ⟨last.1.trans (own.1.trans ?_), last.2.trans own.2⟩
  simp

/-! ## Sequences of alarms -/

/-- No occurrence of a mount is fired by two alarms. -/
def FiresOnce (base : Str) (fired : List (Int × List Fire)) : Prop :=
  fired.Pairwise fun first second =>
    ∀ occurrence, (base, occurrence) ∈ first.2 → (base, occurrence) ∉ second.2

/-- Any two alarms at which one occurrence is due are within the life of a cron claim. -/
def DueWithinClaim (schedule : Schedule) (times : List Int) : Prop :=
  times.Pairwise fun first second =>
    ∀ occurrence, dueOccurrenceMs schedule first = some occurrence →
      dueOccurrenceMs schedule second = some occurrence → second ≤ first + claimTtlMs schedule

section Alarms

variable {tenant : Str} {mounts : List ScheduledMount}
  (distinct : (mounts.map ScheduledMount.base).Nodup)
  {mount : ScheduledMount} (member : mount ∈ mounts)
include distinct member

variable {times : List Int} {occurrence from_ : Int} {past : List (Int × List Fire)}

/-- An alarm fires what is due at its time. -/
theorem due_of_fired {fired : Int × List Fire} (isAlarm : fired ∈ alarms tenant mounts claims times)
    (fires : (mount.base, occurrence) ∈ fired.2) :
    fired.1 ∈ times ∧ dueOccurrenceMs mount.schedule fired.1 = some occurrence := by
  induction times generalizing claims with
  | nil => cases isAlarm
  | cons nowMs times ih =>
    rcases List.mem_cons.mp isAlarm with rfl | later
    · exact ⟨List.mem_cons_self,
        ((alarm_spec tenant nowMs distinct member claims occurrence).1.mp fires).1⟩
    · obtain ⟨inTimes, due⟩ := ih later
      exact ⟨List.mem_cons_of_mem _ inTimes, due⟩

/-- What is claimed until the last alarm at which it is due is not fired again. -/
theorem not_fired_of_claimed {expiresMs : Int}
    (claimed : claims.find (claimKey tenant mount.base, occurrence) = some expiresMs)
    (ordered : times.Pairwise (· ≤ ·))
    (covers : ∀ time ∈ times, dueOccurrenceMs mount.schedule time = some occurrence →
      time ≤ expiresMs) :
    ∀ fired ∈ alarms tenant mounts claims times, (mount.base, occurrence) ∉ fired.2 := by
  induction times generalizing claims with
  | nil =>
    intro fired isAlarm
    cases isAlarm
  | cons nowMs times ih =>
    rw [List.pairwise_cons] at ordered
    by_cases lives : nowMs ≤ expiresMs
    · have isLive : live nowMs claims (claimKey tenant mount.base, occurrence) =
          some expiresMs :=
        live_eq_some.mpr ⟨claimed, lives⟩
      obtain ⟨firesIff, after⟩ := alarm_spec tenant nowMs distinct member claims occurrence
      rw [isLive] at firesIff after
      rw [if_neg (by simp)] at after
      intro fired isAlarm
      rcases List.mem_cons.mp isAlarm with rfl | later
      · rw [firesIff]
        simp
      · exact ih (live_eq_some.mp after).1 ordered.2
          (fun time inTimes => covers time (List.mem_cons_of_mem _ inTimes)) fired later
    · -- the claim has expired, and so the occurrence is not due any more
      intro fired isAlarm fires
      obtain ⟨inTimes, due⟩ := due_of_fired distinct member isAlarm fires
      have inTime := covers fired.1 inTimes due
      rcases List.mem_cons.mp inTimes with same | later
      · omega
      · have := ordered.1 _ later
        omega

/-- Alarms within the life of a claim fire each occurrence once. -/
theorem firesOnce_of_dueWithinClaim (ordered : times.Pairwise (· ≤ ·))
    (within : DueWithinClaim mount.schedule times) (claims : Claims) :
    FiresOnce mount.base (alarms tenant mounts claims times) := by
  induction times generalizing claims with
  | nil => exact List.Pairwise.nil
  | cons nowMs times ih =>
    unfold DueWithinClaim at within
    rw [List.pairwise_cons] at ordered within
    refine List.Pairwise.cons (fun fired later occurrence fires => ?_)
      (ih ordered.2 within.2 _)
    obtain ⟨firesIff, after⟩ := alarm_spec tenant nowMs distinct member claims occurrence
    have won := firesIff.mp fires
    rw [if_pos won] at after
    exact not_fired_of_claimed distinct member (live_eq_some.mp after).1 ordered.2
      (fun time inTimes due => within.1 time inTimes occurrence won.1 due) fired later

variable (tenant mount) in
omit distinct member in
/-- From a time on, every live claim of the mount is of an alarm that fired it. -/
def Explained (past : List (Int × List Fire)) (claims : Claims) (from_ : Int) : Prop :=
  ∀ time occurrence expiresMs, from_ ≤ time →
    live time claims (claimKey tenant mount.base, occurrence) = some expiresMs →
      ∃ fired ∈ past, (mount.base, occurrence) ∈ fired.2 ∧
        expiresMs = fired.1 + claimTtlMs mount.schedule

/-- After an alarm, live claims are its own or were live before. -/
theorem Explained.alarm {nowMs : Int} (explained : Explained tenant mount past claims from_)
    (later : from_ ≤ nowMs) :
    Explained tenant mount (past ++ [(nowMs, (alarm tenant mounts nowMs claims).1)])
      (Scheduler.alarm tenant mounts nowMs claims).2 nowMs := by
  intro time occurrence expiresMs afterNow isLive
  obtain ⟨found, unexpired⟩ := live_eq_some.mp isLive
  have isLiveNow := live_eq_some.mpr ⟨found, afterNow.trans unexpired⟩
  obtain ⟨firesIff, after⟩ := alarm_spec tenant nowMs distinct member claims occurrence
  rw [after] at isLiveNow
  split at isLiveNow
  next won =>
    cases isLiveNow
    exact ⟨_, List.mem_append_right _ List.mem_cons_self, firesIff.mpr won, rfl⟩
  next =>
    obtain ⟨fired, inPast, fires, expires⟩ := explained nowMs occurrence expiresMs later isLiveNow
    exact ⟨fired, List.mem_append_left _ inPast, fires, expires⟩

/-- What is due at an alarm was fired by it, or by an earlier one whose claim still lives. -/
theorem Explained.fired {nowMs : Int} (explained : Explained tenant mount past claims from_)
    (later : from_ ≤ nowMs) (due : dueOccurrenceMs mount.schedule nowMs = some occurrence) :
    ∃ fired ∈ past ++ [(nowMs, (Scheduler.alarm tenant mounts nowMs claims).1)],
      (mount.base, occurrence) ∈ fired.2 ∧ nowMs ≤ fired.1 + claimTtlMs mount.schedule := by
  cases isLive : live nowMs claims (claimKey tenant mount.base, occurrence) with
  | none =>
    refine ⟨_, List.mem_append_right _ List.mem_cons_self,
      (alarm_spec tenant nowMs distinct member claims occurrence).1.mpr ⟨due, isLive⟩, ?_⟩
    have := claimTtlMs_nonneg mount.schedule
    dsimp only
    omega
  | some expiresMs =>
    obtain ⟨fired, inPast, fires, rfl⟩ := explained nowMs occurrence expiresMs later isLive
    exact ⟨fired, List.mem_append_left _ inPast, fires, (live_eq_some.mp isLive).2⟩

omit distinct member in
/-- If no occurrence is fired twice, two alarms that fired it are at one time. -/
theorem FiresOnce.same_time {alarms : List (Int × List Fire)} (once : FiresOnce base alarms)
    {first second : Int × List Fire} (inFirst : first ∈ alarms) (inSecond : second ∈ alarms)
    (firstFires : (base, occurrence) ∈ first.2) (secondFires : (base, occurrence) ∈ second.2) :
    first.1 = second.1 := by
  by_contra differ
  have symmetric : Std.Symm fun first second : Int × List Fire =>
      ∀ occurrence, (base, occurrence) ∈ first.2 → (base, occurrence) ∉ second.2 :=
    ⟨fun _ _ apart occurrence inSecond inFirst => apart occurrence inFirst inSecond⟩
  exact List.Pairwise.forall once inFirst inSecond (fun same => differ (same ▸ rfl))
    occurrence firstFires secondFires

/-- If each occurrence is fired once, no alarm comes after the claim of one that is still due. -/
theorem dueWithinClaim_of_firesOnce (explained : Explained tenant mount past claims from_)
    (before : ∀ fired ∈ past, fired.1 ≤ from_) (later : ∀ time ∈ times, from_ ≤ time)
    (ordered : times.Pairwise (· ≤ ·))
    (once : FiresOnce mount.base (past ++ alarms tenant mounts claims times)) :
    DueWithinClaim mount.schedule times ∧
      ∀ fired ∈ past, ∀ time ∈ times, ∀ occurrence, (mount.base, occurrence) ∈ fired.2 →
        dueOccurrenceMs mount.schedule time = some occurrence →
          time ≤ fired.1 + claimTtlMs mount.schedule := by
  induction times generalizing past claims from_ with
  | nil =>
    refine ⟨List.Pairwise.nil, fun fired _ time inTimes => ?_⟩
    cases inTimes
  | cons nowMs times ih =>
    rw [List.pairwise_cons] at ordered
    have now := later nowMs List.mem_cons_self
    have shape : past ++ alarms tenant mounts claims (nowMs :: times) =
        (past ++ [(nowMs, (Scheduler.alarm tenant mounts nowMs claims).1)]) ++
          alarms tenant mounts (Scheduler.alarm tenant mounts nowMs claims).2 times := by
      rw [List.append_assoc]
      rfl
    rw [shape] at once
    have done : FiresOnce mount.base
        (past ++ [(nowMs, (Scheduler.alarm tenant mounts nowMs claims).1)]) :=
      (List.pairwise_append.mp once).1
    have doneBefore : ∀ fired ∈ past ++
        [(nowMs, (Scheduler.alarm tenant mounts nowMs claims).1)], fired.1 ≤ nowMs := by
      intro fired inDone
      rcases List.mem_append.mp inDone with inPast | isNow
      · exact (before fired inPast).trans now
      · rw [List.mem_singleton.mp isNow]
    obtain ⟨rest, fromDone⟩ := ih (explained.alarm distinct member now)
      doneBefore ordered.1 ordered.2 once
    constructor
    · refine List.Pairwise.cons (fun time inTimes occurrence due dueLater => ?_) rest
      obtain ⟨fired, inDone, fires, -⟩ := explained.fired distinct member now due
      have bound := fromDone fired inDone time inTimes occurrence fires dueLater
      have earlier := doneBefore fired inDone
      omega
    · intro fired inPast time inTimes occurrence fires due
      have inDone := List.mem_append_left
        [(nowMs, (Scheduler.alarm tenant mounts nowMs claims).1)] inPast
      rcases List.mem_cons.mp inTimes with rfl | inRest
      · obtain ⟨other, inDoneOther, otherFires, bound⟩ :=
          explained.fired distinct member now due
        rw [done.same_time inDone inDoneOther fires otherFires]
        exact bound
      · exact fromDone fired inDone time inRest occurrence fires due

end Alarms

/-- For every tenant, mounts with distinct bases and alarms in any order of time, no occurrence of
a cron mount is fired by two alarms exactly if any two alarms at which the same occurrence is due
are at most two minutes apart. -/
theorem cron_occurrence_fires_once_iff (tenant : Str) (mounts : List ScheduledMount)
    (distinct : (mounts.map ScheduledMount.base).Nodup) (times : List Int)
    (ordered : times.Pairwise (· ≤ ·)) (mount : ScheduledMount) (member : mount ∈ mounts)
    (cron : CronSchedule) (isCron : mount.schedule = .cron cron) :
    FiresOnce mount.base (alarms tenant mounts .empty times) ↔
      times.Pairwise fun first second =>
        ∀ occurrence, dueOccurrenceMs (.cron cron) first = some occurrence →
          dueOccurrenceMs (.cron cron) second = some occurrence → second ≤ first + 120000 := by
  have same : DueWithinClaim mount.schedule times ↔
      times.Pairwise fun first second =>
        ∀ occurrence, dueOccurrenceMs (.cron cron) first = some occurrence →
          dueOccurrenceMs (.cron cron) second = some occurrence → second ≤ first + 120000 := by
    rw [isCron]
    exact Iff.rfl
  rw [← same]
  constructor
  · intro once
    cases times with
    | nil => exact List.Pairwise.nil
    | cons nowMs times =>
      have nothing : Explained tenant mount [] .empty nowMs := by
        intro time occurrence expiresMs _ isLive
        cases (live_eq_some.mp isLive).1
      have later : ∀ time ∈ nowMs :: times, nowMs ≤ time := by
        intro time inTimes
        rcases List.mem_cons.mp inTimes with rfl | inRest
        · exact le_refl _
        · exact (List.pairwise_cons.mp ordered).1 time inRest
      have noPast : ∀ fired ∈ ([] : List (Int × List Fire)), fired.1 ≤ nowMs := by
        intro fired inPast
        cases inPast
      exact (dueWithinClaim_of_firesOnce distinct member nothing noPast later ordered once).1
  · intro within
    exact firesOnce_of_dueWithinClaim distinct member ordered within .empty

/-! An hourly mount, and one that fires every three minutes. -/

def hourly : CronSchedule :=
  ⟨.set [0], .any, .any, .any, .any⟩

example : parseCron "0 * * * *" = .ok hourly := by decide +kernel

def hourlyAndInterval : List ScheduledMount :=
  [⟨"/a", .cron hourly⟩, ⟨"/b", .interval 180000⟩]

theorem prompt_retry_fires_once :
    FiresOnce "/a" (alarms "t" hourlyAndInterval .empty [3600000, 3660000]) := by
  refine (cron_occurrence_fires_once_iff "t" hourlyAndInterval (by decide) [3600000, 3660000]
    (by decide) ⟨"/a", .cron hourly⟩ List.mem_cons_self hourly rfl).mpr ?_
  rw [List.pairwise_pair]
  intro occurrence _ _
  decide

/-- The hour, fired at the hour and three minutes later. -/
def hourTwice : List (Int × List Fire) :=
  [(3600000, [("/a", 3600000), ("/b", 3600000)]), (3780000, [("/a", 3600000), ("/b", 3780000)])]

/-- The alarm of the other mount, three minutes after the hour, fires the hour a second time. -/
theorem hour_fires_twice :
    alarms "t" hourlyAndInterval .empty [3600000, 3780000] = hourTwice ∧
      ¬ FiresOnce "/a" (alarms "t" hourlyAndInterval .empty [3600000, 3780000]) := by
  have fired : alarms "t" hourlyAndInterval .empty [3600000, 3780000] = hourTwice := by
    decide +kernel
  refine ⟨fired, fun once => ?_⟩
  rw [fired, FiresOnce, hourTwice, List.pairwise_pair] at once
  exact once 3600000 List.mem_cons_self List.mem_cons_self

end Rs2Runtime.Scheduler
