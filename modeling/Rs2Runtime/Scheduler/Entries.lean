import Rs2Runtime.Scheduler.Cron

/-!
Contract: the schedule entries that the runtime polls.

Owns:
- the search for the next occurrence of a cron expression, and its bound;
- entries with their cursor, their creation and what a poll finds due;
- when polling fires the true occurrences of an expression, in order and without a gap.

Does not own: claims among several nodes, or the ticks that a fire dispatches.
-/

namespace Rs2Runtime.Scheduler

open Text

/-! ## Searching -/

/-- Times of the wall clock are nanoseconds from the epoch. -/
def minuteNs : Nat :=
  60 * 1000000000

/-- The bound of a search: 366 days. -/
def yearNs : Nat :=
  366 * 24 * 60 * minuteNs

/-- Step by minutes from `time` to the first match, up to `bound`. -/
def searchFrom (cron : CronSchedule) (bound : Nat) : Nat → Nat → Option Nat
  | 0, _ => none
  | turns + 1, time =>
    if time ≤ bound then
      if cron.matches (time / minuteNs : Nat) then
        some time
      else
        searchFrom cron bound turns (time + minuteNs)
    else
      none

/-- The first matching minute strictly after a time, none if it is out of bounds. -/
def CronSchedule.nextOccurrenceAfter (cron : CronSchedule) (after : Nat) : Option Nat :=
  searchFrom cron (after + yearNs) (366 * 24 * 60 + 1) (after / minuteNs * minuteNs + minuteNs)

/-- A time that is a matching minute. -/
def CronSchedule.Occurs (cron : CronSchedule) (time : Nat) : Prop :=
  ∃ minute : Nat, time = minute * minuteNs ∧ cron.matches minute = true

theorem minute_div (minute : Nat) : minute * minuteNs / minuteNs = minute :=
  Nat.mul_div_cancel minute (by decide)

variable {cron : CronSchedule}

theorem searchFrom_some {bound turns minute found : Nat}
    (isFound : searchFrom cron bound turns (minute * minuteNs) = some found) :
    ∃ other : Nat, minute ≤ other ∧ found = other * minuteNs ∧ found ≤ bound ∧
      cron.matches other = true ∧
      ∀ between : Nat, minute ≤ between → between < other → cron.matches between = false := by
  induction turns generalizing minute with
  | zero => cases isFound
  | succ turns ih =>
    unfold searchFrom at isFound
    rw [minute_div] at isFound
    split at isFound
    next inBound =>
      split at isFound
      next isMatch =>
        cases isFound
        exact ⟨minute, le_refl _, rfl, inBound, isMatch, fun between low high => by omega⟩
      next noMatch =>
        rw [← Nat.succ_mul] at isFound
        obtain ⟨other, low, isOther, fits, isMatch, none_⟩ := ih isFound
        refine ⟨other, by omega, isOther, fits, isMatch, fun between first last => ?_⟩
        rcases Nat.lt_or_eq_of_le first with later | rfl
        · exact none_ between later last
        · exact Bool.eq_false_iff.mpr noMatch
    next => cases isFound

theorem searchFrom_none {bound turns minute : Nat} (enough : bound < (minute + turns) * minuteNs)
    (notFound : searchFrom cron bound turns (minute * minuteNs) = none) {other : Nat}
    (low : minute ≤ other) (fits : other * minuteNs ≤ bound) : cron.matches other = false := by
  induction turns generalizing minute with
  | zero =>
    have := Nat.mul_le_mul_right minuteNs low
    rw [Nat.add_zero] at enough
    omega
  | succ turns ih =>
    unfold searchFrom at notFound
    rw [minute_div, ← Nat.succ_mul] at notFound
    split at notFound
    next inBound =>
      split at notFound
      next => cases notFound
      next noMatch =>
        rcases Nat.lt_or_eq_of_le low with later | rfl
        · exact ih (by rwa [Nat.succ_add_eq_add_succ]) notFound later
        · exact Bool.eq_false_iff.mpr noMatch
    next outOfBound =>
      have := Nat.mul_le_mul_right minuteNs low
      omega

/-- A minute is after a time exactly if it is not before the first whole minute after it. -/
theorem lt_minute_iff (after minute : Nat) :
    after < minute * minuteNs ↔ after / minuteNs + 1 ≤ minute := by
  rw [Nat.succ_le_iff, Nat.div_lt_iff_lt_mul (by decide)]

theorem nextOccurrenceAfter_some {after found : Nat}
    (isFound : cron.nextOccurrenceAfter after = some found) :
    cron.Occurs found ∧ after < found ∧ found ≤ after + yearNs ∧
      ∀ time, cron.Occurs time → after < time → found ≤ time := by
  unfold CronSchedule.nextOccurrenceAfter at isFound
  rw [← Nat.succ_mul] at isFound
  obtain ⟨minute, low, rfl, fits, isMatch, none_⟩ := searchFrom_some isFound
  refine ⟨⟨minute, rfl, isMatch⟩, (lt_minute_iff after minute).mpr low, fits, ?_⟩
  rintro _ ⟨other, rfl, otherMatch⟩ later
  by_contra earlier
  have before : other < minute := by
    by_contra notBefore
    exact earlier (Nat.mul_le_mul_right minuteNs (Nat.le_of_not_lt notBefore))
  rw [none_ other ((lt_minute_iff after other).mp later) before] at otherMatch
  cases otherMatch

theorem nextOccurrenceAfter_none {after : Nat} (notFound : cron.nextOccurrenceAfter after = none)
    {time : Nat} (occurs : cron.Occurs time) (later : after < time) : after + yearNs < time := by
  obtain ⟨minute, rfl, isMatch⟩ := occurs
  by_contra within
  unfold CronSchedule.nextOccurrenceAfter at notFound
  rw [← Nat.succ_mul] at notFound
  have enough : after + yearNs < (after / minuteNs + 1 + (366 * 24 * 60 + 1)) * minuteNs := by
    have := Nat.lt_div_mul_add (a := after) (b := minuteNs) (by decide)
    rw [Nat.add_mul, Nat.add_mul]
    unfold yearNs
    omega
  rw [searchFrom_none enough notFound ((lt_minute_iff after minute).mp later)
    (Nat.le_of_not_lt within)] at isMatch
  cases isMatch

/-- The search gives the least matching minute after a time, and gives nothing exactly if none
lies within 366 days of it. -/
theorem next_occurrence_is_least_within_bound (cron : CronSchedule) (after : Nat) :
    (∀ found, cron.nextOccurrenceAfter after = some found →
      IsLeast {time | cron.Occurs time ∧ after < time} found) ∧
      (cron.nextOccurrenceAfter after = none ↔
        ∀ time, cron.Occurs time → after < time → after + yearNs < time) := by
  constructor
  · intro found isFound
    obtain ⟨occurs, later, _, least⟩ := nextOccurrenceAfter_some isFound
    exact ⟨⟨occurs, later⟩, fun time ⟨isTime, isLater⟩ => least time isTime isLater⟩
  · constructor
    · intro notFound time occurs later
      exact nextOccurrenceAfter_none notFound occurs later
    · intro beyond
      cases search : cron.nextOccurrenceAfter after with
      | none => rfl
      | some found =>
        obtain ⟨occurs, later, fits, _⟩ := nextOccurrenceAfter_some search
        exact absurd (beyond found occurs later) (Nat.not_lt_of_le fits)

/-! ## Entries -/

/-- The cursor of an entry. -/
inductive SchedState where
  | interval (lastFired : Nat)
  | cron (nextDue : Nat)
  deriving DecidableEq

/-- An armed schedule. -/
structure SchedEntry where
  schedule : Schedule
  state : SchedState
  deriving DecidableEq

/-- The two clocks at a poll, in nanoseconds. -/
structure Poll where
  instant : Nat
  wall : Nat
  deriving DecidableEq

/-- Arm a schedule; one that never matches within a year is skipped. -/
def SchedEntry.create (schedule : Schedule) (now : Poll) : Option SchedEntry :=
  match schedule with
  | .interval _ => some ⟨schedule, .interval now.instant⟩
  | .cron cron => (cron.nextOccurrenceAfter now.wall).map fun nextDue => ⟨schedule, .cron nextDue⟩

/-- The occurrence that is due at a poll, in milliseconds, with the entry after it. -/
def SchedEntry.dueOccurrence (entry : SchedEntry) (now : Poll) : Option Int × SchedEntry :=
  match entry.schedule, entry.state with
  | .interval everyMs, .interval lastFired =>
    if everyMs * 1000000 ≤ now.instant - lastFired then
      (some (intervalBucketMs (now.wall / 1000000 : Nat) everyMs),
        { entry with state := .interval now.instant })
    else
      (none, entry)
  | .cron cron, .cron nextDue =>
    if nextDue ≤ now.wall then
      (some (nextDue / 1000000 : Nat),
        { entry with
          state := .cron ((cron.nextOccurrenceAfter now.wall).getD (now.wall + yearNs)) })
    else
      (none, entry)
  | _, _ => (none, entry)

/-- A sequence of polls, each with what it found due. -/
def SchedEntry.polled (entry : SchedEntry) : List Poll → List (Nat × Option Int)
  | [] => []
  | now :: polls =>
    let due := entry.dueOccurrence now
    (now.wall, due.1) :: due.2.polled polls

/-! ## True occurrences -/

/-- Polling from one time on happens at least once a minute. -/
def EachMinute (created : Nat) (walls : List Nat) : Prop :=
  (created :: walls).IsChain fun earlier later => later ≤ earlier + minuteNs

/-- What polls found due. -/
def occurrences (outcomes : List (Nat × Option Int)) : List Int :=
  outcomes.filterMap Prod.snd

/-- Polls find the true occurrences of an expression, in order, and all of them if they happen
often enough. -/
structure FiresTruly (cron : CronSchedule) (created : Nat) (walls : List Nat)
    (outcomes : List (Nat × Option Int)) : Prop where
  occurs : ∀ wall occurrence, (wall, some occurrence) ∈ outcomes →
    ∃ minute : Nat, occurrence = minute * 60000 ∧ cron.matches minute = true ∧
      minute * minuteNs ≤ wall
  increasing : (occurrences outcomes).Pairwise (· < ·)
  complete : EachMinute created walls →
    ∀ minute : Nat, cron.matches minute = true → created < minute * minuteNs →
      (∃ wall ∈ walls, minute * minuteNs ≤ wall) →
        (minute * 60000 : Int) ∈ occurrences outcomes

/-- From every poll the next occurrence is within the bound of the search, or no poll comes
after that bound. -/
def NextWithinBound (cron : CronSchedule) (walls : List Nat) : Prop :=
  ∀ wall ∈ walls,
    (∃ time, cron.Occurs time ∧ wall < time ∧ time ≤ wall + yearNs) ∨
      ∀ poll ∈ walls, poll < wall + yearNs

variable {wall nextDue previous : Nat} {walls : List Nat} {polls : List Poll}

theorem NextWithinBound.tail (within : NextWithinBound cron (wall :: walls)) :
    NextWithinBound cron walls := by
  intro other member
  refine (within other (List.mem_cons_of_mem _ member)).imp id fun before poll inWalls => ?_
  exact before poll (List.mem_cons_of_mem _ inWalls)

/-- The entry of a cron expression with its cursor. -/
def cronEntry (cron : CronSchedule) (nextDue : Nat) : SchedEntry :=
  ⟨.cron cron, .cron nextDue⟩

/-- The cursor after a poll that reached it. -/
def advance (cron : CronSchedule) (wall : Nat) : Nat :=
  (cron.nextOccurrenceAfter wall).getD (wall + yearNs)

theorem lt_advance (cron : CronSchedule) (wall : Nat) : wall < advance cron wall := by
  unfold advance
  cases search : cron.nextOccurrenceAfter wall with
  | some next => exact (nextOccurrenceAfter_some search).2.1
  | none => exact Nat.lt_add_of_pos_right (by decide)

theorem polled_reached {now : Poll} (reached : nextDue ≤ now.wall) (polls : List Poll) :
    (cronEntry cron nextDue).polled (now :: polls) =
      (now.wall, some ((nextDue / 1000000 : Nat) : Int)) ::
        (cronEntry cron (advance cron now.wall)).polled polls := by
  simp only [SchedEntry.polled, SchedEntry.dueOccurrence, cronEntry, advance, if_pos reached]

theorem polled_early {now : Poll} (early : now.wall < nextDue) (polls : List Poll) :
    (cronEntry cron nextDue).polled (now :: polls) =
      (now.wall, none) :: (cronEntry cron nextDue).polled polls := by
  simp only [SchedEntry.polled, SchedEntry.dueOccurrence, cronEntry,
    if_neg (Nat.not_le_of_lt early)]

/-- The cursor is the first occurrence after the previous poll. -/
structure Armed (cron : CronSchedule) (previous nextDue : Nat) : Prop where
  occurs : cron.Occurs nextDue
  later : previous < nextDue
  first : ∀ time, cron.Occurs time → previous < time → nextDue ≤ time

/-- No poll reaches the cursor, or an occurrence. -/
structure Idle (cron : CronSchedule) (previous nextDue : Nat) (walls : List Nat) : Prop where
  unreached : ∀ wall ∈ walls, wall < nextDue
  nothing : ∀ time, cron.Occurs time → previous < time → ∀ wall ∈ walls, wall < time

/-- The cursor of an entry is armed, or will not matter. -/
def Ready (cron : CronSchedule) (previous nextDue : Nat) (walls : List Nat) : Prop :=
  Armed cron previous nextDue ∨ Idle cron previous nextDue walls

/-- A poll before the cursor leaves the entry ready. -/
theorem Ready.wait (ready : Ready cron previous nextDue (wall :: walls)) (ordered : previous ≤ wall)
    (early : wall < nextDue) : Ready cron wall nextDue walls := by
  rcases ready with armed | idle
  · exact .inl ⟨armed.occurs, early, fun time occurs later =>
      armed.first time occurs (lt_of_le_of_lt ordered later)⟩
  · exact .inr ⟨fun other member => idle.unreached other (List.mem_cons_of_mem _ member),
      fun time occurs later other member =>
        idle.nothing time occurs (lt_of_le_of_lt ordered later) other
          (List.mem_cons_of_mem _ member)⟩

/-- A poll that reaches the cursor was armed, and leaves the entry ready. -/
theorem Ready.fire (ready : Ready cron previous nextDue (wall :: walls)) (reached : nextDue ≤ wall)
    (within : NextWithinBound cron (wall :: walls)) :
    Armed cron previous nextDue ∧
      Ready cron wall (advance cron wall) walls := by
  have armed : Armed cron previous nextDue := by
    rcases ready with armed | idle
    · exact armed
    · have := idle.unreached wall List.mem_cons_self
      omega
  refine ⟨armed, ?_⟩
  unfold advance
  cases search : cron.nextOccurrenceAfter wall with
  | some next =>
    obtain ⟨occurs, later, -, first⟩ := nextOccurrenceAfter_some search
    exact .inl ⟨occurs, later, first⟩
  | none =>
    have before : ∀ poll ∈ wall :: walls, poll < wall + yearNs := by
      rcases within wall List.mem_cons_self with ⟨time, occurs, later, bounded⟩ | before
      · have := nextOccurrenceAfter_none search occurs later
        omega
      · exact before
    refine .inr ⟨fun other member => before other (List.mem_cons_of_mem _ member), ?_⟩
    intro time occurs later other member
    exact (before other (List.mem_cons_of_mem _ member)).trans
      (nextOccurrenceAfter_none search occurs later)

/-- The occurrence of a cursor at a matching minute. -/
theorem occurrence_of_minute (minute : Nat) :
    ((minute * minuteNs / 1000000 : Nat) : Int) = minute * 60000 := by
  unfold minuteNs
  omega

/-- Nothing that is found due lies before the cursor. -/
theorem nextDue_le_of_polled (ready : Ready cron previous nextDue (polls.map Poll.wall))
    (ordered : (previous :: polls.map Poll.wall).Pairwise (· ≤ ·))
    (within : NextWithinBound cron (polls.map Poll.wall)) {occurrence : Int}
    (found : occurrence ∈ occurrences ((cronEntry cron nextDue).polled polls)) :
    (nextDue : Int) ≤ occurrence * 1000000 := by
  induction polls generalizing previous nextDue with
  | nil => cases found
  | cons now polls ih =>
    rw [List.map_cons] at ready ordered within
    obtain ⟨afterPrevious, orderedRest⟩ := List.pairwise_cons.mp ordered
    by_cases reached : nextDue ≤ now.wall
    · obtain ⟨armed, readyRest⟩ := ready.fire reached within
      rw [polled_reached reached] at found
      rcases List.mem_cons.mp found with rfl | later
      · obtain ⟨minute, rfl, -⟩ := armed.occurs
        rw [occurrence_of_minute]
        unfold minuteNs
        omega
      · have bound := ih readyRest orderedRest within.tail later
        have advanced := lt_advance cron now.wall
        omega
    · have early := Nat.lt_of_not_le reached
      rw [polled_early early] at found
      exact ih (ready.wait (afterPrevious _ List.mem_cons_self) early)
        orderedRest within.tail found

/-- A ready entry fires truly from its previous poll on. -/
theorem firesTruly_of_ready (ready : Ready cron previous nextDue (polls.map Poll.wall))
    (ordered : (previous :: polls.map Poll.wall).Pairwise (· ≤ ·))
    (within : NextWithinBound cron (polls.map Poll.wall)) :
    FiresTruly cron previous (polls.map Poll.wall) ((cronEntry cron nextDue).polled polls) := by
  induction polls generalizing previous nextDue with
  | nil =>
    refine ⟨fun wall occurrence found => ?_, List.Pairwise.nil, ?_⟩
    · cases found
    · rintro - minute - - ⟨wall, member, -⟩
      cases member
  | cons now polls ih =>
    rw [List.map_cons] at ready ordered within ⊢
    obtain ⟨afterPrevious, orderedRest⟩ := List.pairwise_cons.mp ordered
    have notBefore := afterPrevious now.wall List.mem_cons_self
    by_cases reached : nextDue ≤ now.wall
    · obtain ⟨armed, readyRest⟩ := ready.fire reached within
      have rest := ih readyRest orderedRest within.tail
      have bound : ∀ occurrence ∈
          occurrences ((cronEntry cron (advance cron now.wall)).polled polls),
          (advance cron now.wall : Int) ≤ occurrence * 1000000 :=
        fun occurrence => nextDue_le_of_polled readyRest orderedRest within.tail
      obtain ⟨minute, rfl, isMatch⟩ := armed.occurs
      rw [polled_reached reached, occurrence_of_minute]
      refine ⟨fun wall occurrence found => ?_, ?_, ?_⟩
      · rcases List.mem_cons.mp found with same | later
        · cases same
          exact ⟨minute, rfl, isMatch, reached⟩
        · exact rest.occurs wall occurrence later
      · refine List.Pairwise.cons (fun occurrence later => ?_) rest.increasing
        have further := bound occurrence later
        have advanced := lt_advance cron now.wall
        unfold minuteNs at reached
        omega
      · intro often other otherMatch later reachedBy
        rw [EachMinute, List.isChain_cons_cons] at often
        by_cases same : other = minute
        · exact same ▸ List.mem_cons_self
        · -- the next whole minute is after this poll, which comes within a minute
          have notEarlier := armed.first _ ⟨other, rfl, otherMatch⟩ later
          have afterNow : now.wall < other * minuteNs := by
            have latest := often.1
            have previousEarlier := armed.later
            unfold minuteNs at notEarlier latest previousEarlier ⊢
            omega
          refine List.mem_cons_of_mem _ (rest.complete often.2 other otherMatch afterNow ?_)
          obtain ⟨wall, member, isReached⟩ := reachedBy
          rcases List.mem_cons.mp member with rfl | inRest
          · omega
          · exact ⟨wall, inRest, isReached⟩
    · have early := Nat.lt_of_not_le reached
      have rest := ih (ready.wait notBefore early) orderedRest within.tail
      rw [polled_early early]
      refine ⟨fun wall occurrence found => ?_, rest.increasing, ?_⟩
      · rcases List.mem_cons.mp found with same | later
        · cases same
        · exact rest.occurs wall occurrence later
      · intro often other otherMatch later reachedBy
        rw [EachMinute, List.isChain_cons_cons] at often
        have afterNow : now.wall < other * minuteNs := by
          rcases ready with armed | idle
          · exact lt_of_lt_of_le early (armed.first _ ⟨other, rfl, otherMatch⟩ later)
          · exact idle.nothing _ ⟨other, rfl, otherMatch⟩ later _ List.mem_cons_self
        refine rest.complete often.2 other otherMatch afterNow ?_
        obtain ⟨wall, member, isReached⟩ := reachedBy
        rcases List.mem_cons.mp member with rfl | inRest
        · omega
        · exact ⟨wall, inRest, isReached⟩

/-! ## Beyond the bound -/

/-- A cursor that a poll reaches is found due. -/
theorem exists_polled (cron : CronSchedule)
    (reached : ∃ wall ∈ polls.map Poll.wall, nextDue ≤ wall) :
    ∃ wall, (wall, some ((nextDue / 1000000 : Nat) : Int)) ∈
      (cronEntry cron nextDue).polled polls := by
  induction polls with
  | nil =>
    obtain ⟨wall, member, -⟩ := reached
    cases member
  | cons now polls ih =>
    by_cases due : nextDue ≤ now.wall
    · rw [polled_reached due]
      exact ⟨now.wall, List.mem_cons_self⟩
    · obtain ⟨wall, member, isReached⟩ := reached
      rw [List.map_cons] at member
      rw [polled_early (Nat.lt_of_not_le due)]
      rcases List.mem_cons.mp member with rfl | inRest
      · exact absurd isReached due
      · obtain ⟨found, isFound⟩ := ih ⟨wall, inRest, isReached⟩
        exact ⟨found, List.mem_cons_of_mem _ isFound⟩

/-- If an armed entry finds only true occurrences due, polls stay within the bounds of the
searches. -/
theorem nextWithinBound_of_occurs (armed : Armed cron previous nextDue)
    (bounded : nextDue ≤ previous + yearNs)
    (ordered : (previous :: polls.map Poll.wall).Pairwise (· ≤ ·)) (occurs : ∀ wall occurrence,
      (wall, some occurrence) ∈ (cronEntry cron nextDue).polled polls →
        ∃ minute : Nat, occurrence = minute * 60000 ∧ cron.matches minute = true ∧
          minute * minuteNs ≤ wall) :
    NextWithinBound cron (polls.map Poll.wall) := by
  induction polls generalizing previous nextDue with
  | nil =>
    intro wall member
    cases member
  | cons now polls ih =>
    rw [List.map_cons] at ordered ⊢
    obtain ⟨afterPrevious, orderedRest⟩ := List.pairwise_cons.mp ordered
    have notBefore := afterPrevious now.wall List.mem_cons_self
    have orderedAfter := (List.pairwise_cons.mp orderedRest).1
    -- an earlier poll is before every later bound
    have extend : NextWithinBound cron (polls.map Poll.wall) →
        ((∃ time, cron.Occurs time ∧ now.wall < time ∧ time ≤ now.wall + yearNs) ∨
          ∀ poll ∈ now.wall :: polls.map Poll.wall, poll < now.wall + yearNs) →
        NextWithinBound cron (now.wall :: polls.map Poll.wall) := by
      intro rest own wall member
      rcases List.mem_cons.mp member with rfl | inRest
      · exact own
      · refine (rest wall inRest).imp id fun before poll inPolls => ?_
        rcases List.mem_cons.mp inPolls with rfl | laterPoll
        · have := orderedAfter wall inRest
          have : 0 < yearNs := by decide
          omega
        · exact before poll laterPoll
    by_cases reached : nextDue ≤ now.wall
    · rw [polled_reached reached] at occurs
      have occursRest := fun wall occurrence found =>
        occurs wall occurrence (List.mem_cons_of_mem _ found)
      unfold advance at occursRest
      cases search : cron.nextOccurrenceAfter now.wall with
      | some next =>
        rw [search, Option.getD_some] at occursRest
        obtain ⟨isNext, later, fits, first⟩ := nextOccurrenceAfter_some search
        exact extend (ih ⟨isNext, later, first⟩ fits orderedRest occursRest)
          (.inl ⟨next, isNext, later, fits⟩)
      | none =>
        rw [search, Option.getD_none] at occursRest
        -- a poll after the bound would find a time due that is no occurrence
        have before : ∀ poll ∈ polls.map Poll.wall, poll < now.wall + yearNs := by
          intro poll member
          by_contra late
          obtain ⟨wall, found⟩ :=
            exists_polled cron ⟨poll, member, Nat.le_of_not_lt late⟩
          obtain ⟨minute, isMinute, isMatch, -⟩ := occursRest wall _ found
          have within : now.wall < minute * minuteNs ∧
              minute * minuteNs ≤ now.wall + yearNs := by
            unfold yearNs minuteNs at isMinute ⊢
            omega
          have := nextOccurrenceAfter_none search ⟨minute, rfl, isMatch⟩ within.1
          omega
        have all : ∀ poll ∈ now.wall :: polls.map Poll.wall, poll < now.wall + yearNs := by
          intro poll member
          rcases List.mem_cons.mp member with rfl | inRest
          · exact Nat.lt_add_of_pos_right (by decide)
          · exact before poll inRest
        refine extend (fun wall member => .inr fun poll inPolls => ?_) (.inr all)
        exact lt_of_lt_of_le (before poll inPolls)
          (Nat.add_le_add_right (orderedAfter wall member) _)
    · have early := Nat.lt_of_not_le reached
      rw [polled_early early] at occurs
      refine extend (ih
        ⟨armed.occurs, early, fun time isOccurrence later =>
          armed.first time isOccurrence (lt_of_le_of_lt notBefore later)⟩
        (bounded.trans (Nat.add_le_add_right notBefore _)) orderedRest
        fun wall occurrence found => occurs wall occurrence (List.mem_cons_of_mem _ found)) ?_
      exact .inl ⟨nextDue, armed.occurs, early,
        bounded.trans (Nat.add_le_add_right notBefore _)⟩

/-- For every expression, creation and non-decreasing polls of the entry that is created: it
finds the true occurrences due, in order and without a gap, exactly if from every poll the next
occurrence is within 366 days, or no poll comes after those. -/
theorem cron_entry_fires_truly_iff (cron : CronSchedule) (created : Poll) (entry : SchedEntry)
    (isCreated : SchedEntry.create (.cron cron) created = some entry) (polls : List Poll)
    (ordered : (created.wall :: polls.map Poll.wall).Pairwise (· ≤ ·)) :
    FiresTruly cron created.wall (polls.map Poll.wall) (entry.polled polls) ↔
      NextWithinBound cron (polls.map Poll.wall) := by
  simp only [SchedEntry.create, Option.map_eq_some_iff] at isCreated
  obtain ⟨nextDue, search, rfl⟩ := isCreated
  obtain ⟨occurs, later, fits, first⟩ := nextOccurrenceAfter_some search
  have armed : Armed cron created.wall nextDue := ⟨occurs, later, first⟩
  change FiresTruly cron created.wall (polls.map Poll.wall)
    ((cronEntry cron nextDue).polled polls) ↔ _
  constructor
  · intro truly
    exact nextWithinBound_of_occurs armed fits ordered truly.occurs
  · intro within
    exact firesTruly_of_ready (.inl armed) ordered within

/-! Every minute, and every leap day. -/

def everyMinute : CronSchedule :=
  ⟨.any, .any, .any, .any, .any⟩

theorem matches_everyMinute (minute : Int) : everyMinute.matches minute = true :=
  rfl

theorem every_minute_fires :
    ∃ entry, SchedEntry.create (.cron everyMinute) ⟨0, 0⟩ = some entry ∧
      FiresTruly everyMinute 0 [minuteNs, 2 * minuteNs]
        (entry.polled [⟨1, minuteNs⟩, ⟨2, 2 * minuteNs⟩]) := by
  have created : SchedEntry.create (.cron everyMinute) ⟨0, 0⟩ =
      some (cronEntry everyMinute minuteNs) := by decide +kernel
  refine ⟨_, created, ?_⟩
  refine (cron_entry_fires_truly_iff everyMinute ⟨0, 0⟩ _ created
    [⟨1, minuteNs⟩, ⟨2, 2 * minuteNs⟩] (by decide)).mpr fun wall member => .inl ?_
  have isMinute : wall = 1 * minuteNs ∨ wall = 2 * minuteNs := by
    simpa using member
  rcases isMinute with rfl | rfl
  · exact ⟨2 * minuteNs, ⟨2, rfl, matches_everyMinute 2⟩, by decide, by decide⟩
  · exact ⟨3 * minuteNs, ⟨3, rfl, matches_everyMinute 3⟩, by decide, by decide⟩

/-- Midnight of February 29th. -/
def leapDay : CronSchedule :=
  ⟨.set [0], .set [0], .set [29], .set [2], .any⟩

example : parseCron "0 0 29 2 *" = .ok leapDay := by decide +kernel

/-- Midnight of February 29th 2024, in minutes. -/
def leapMinute : Nat :=
  19782 * 1440

/-- Five seconds after it. -/
def leapPoll : Nat :=
  leapMinute * minuteNs + 5 * 1000000000

/-- What a leap-day minute is. -/
theorem leapDay_matches {minute : Int} (isMatch : leapDay.matches minute = true) :
    minute % 60 = 0 ∧ minute / 60 % 24 = 0 ∧ month (minute / 1440) = 2 ∧
      dayOfMonth (minute / 1440) = 29 := by
  simp only [CronSchedule.matches, leapDay, CronField.matches, CronSchedule.dayMatches,
    CronField.isAny, List.any_cons, List.any_nil, Bool.or_false, Bool.and_eq_true,
    decide_eq_true_eq, Bool.false_and] at isMatch
  obtain ⟨⟨⟨isMin, isHour⟩, isMonth⟩, isDay⟩ := isMatch
  simp at isDay
  exact ⟨isMin.symm, isHour.symm, isMonth.symm, isDay.symm⟩

/-- The days of a year after a leap day have no February 29th. -/
theorem no_leap_day_within_year :
    ∀ offset ∈ List.range 366, ¬ (month (19783 + offset : Nat) = 2 ∧
      dayOfMonth (19783 + offset : Nat) = 29) := by
  decide +kernel

theorem leapDay_next_none : leapDay.nextOccurrenceAfter leapPoll = none := by
  cases search : leapDay.nextOccurrenceAfter leapPoll with
  | none => rfl
  | some found =>
    obtain ⟨⟨minute, rfl, isMatch⟩, later, fits, -⟩ := nextOccurrenceAfter_some search
    obtain ⟨isMin, isHour, isMonth, isDay⟩ := leapDay_matches isMatch
    unfold leapPoll leapMinute minuteNs at later
    unfold leapPoll leapMinute yearNs minuteNs at fits
    obtain ⟨offset, small, isOffset⟩ :
        ∃ offset : Nat, offset < 366 ∧ (minute : Int) / 1440 = (19783 + offset : Nat) :=
      ⟨minute / 1440 - 19783, by omega, by omega⟩
    rw [isOffset] at isMonth isDay
    exact absurd ⟨isMonth, isDay⟩ (no_leap_day_within_year offset (List.mem_range.mpr small))

/-- After a leap day the search finds nothing, though the next one is four years later. -/
theorem next_leap_day_is_not_found :
    leapDay.nextOccurrenceAfter leapPoll = none ∧
      ∃ time, leapDay.Occurs time ∧ leapPoll < time :=
  ⟨leapDay_next_none, (leapMinute + 1461 * 1440) * minuteNs,
    ⟨leapMinute + 1461 * 1440, rfl, by decide +kernel⟩, by decide⟩

/-- A year after the leap day, an entry for leap days finds the first of March due. -/
theorem leap_day_fires_on_first_of_march :
    ∃ entry, SchedEntry.create (.cron leapDay) ⟨0, leapMinute * minuteNs - 1⟩ = some entry ∧
      ¬ FiresTruly leapDay (leapMinute * minuteNs - 1) [leapPoll, leapPoll + yearNs]
        (entry.polled [⟨1, leapPoll⟩, ⟨2, leapPoll + yearNs⟩]) := by
  have search : leapDay.nextOccurrenceAfter (leapMinute * minuteNs - 1) =
      some (leapMinute * minuteNs) := by decide +kernel
  refine ⟨cronEntry leapDay (leapMinute * minuteNs), ?_, fun truly => ?_⟩
  · simp only [SchedEntry.create, search, Option.map_some]
    rfl
  · obtain ⟨occurs, later, fits, first⟩ := nextOccurrenceAfter_some search
    have within : NextWithinBound leapDay
        ([⟨1, leapPoll⟩, ⟨2, leapPoll + yearNs⟩].map Poll.wall) :=
      nextWithinBound_of_occurs ⟨occurs, later, first⟩ fits (by decide) truly.occurs
    rcases within leapPoll List.mem_cons_self with ⟨time, isTime, after, bounded⟩ | before
    · have := nextOccurrenceAfter_none leapDay_next_none isTime after
      omega
    · have := before (leapPoll + yearNs) (List.mem_cons_of_mem _ List.mem_cons_self)
      omega

end Rs2Runtime.Scheduler
