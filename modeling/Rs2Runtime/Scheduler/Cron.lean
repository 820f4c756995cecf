import Rs2Runtime.Message.Error

/-!
Contract: schedules of mounts, and the minutes that a cron expression matches.

Owns:
- the UTC calendar as a function of the day;
- cron fields and expressions, their parsing and the minutes they match;
- the days that an accepted expression fires on;
- the `schedule` of a mount's configuration.
-/

namespace Rs2Runtime.Scheduler

open Text Json

/-! ## The calendar -/

/-- The position of a day in its era of 400 years from March 1st; days are counted from
1970-01-01. -/
def dayOfEra (day : Int) : Int :=
  (day + 719468) % 146097

/-- The year within the era. -/
def yearOfEra (day : Int) : Int :=
  let doe := dayOfEra day
  (doe - doe / 1460 + doe / 36524 - doe / 146096) / 365

/-- The position of a day in its year from March 1st. -/
def dayOfYear (day : Int) : Int :=
  let yoe := yearOfEra day
  dayOfEra day - (365 * yoe + yoe / 4 - yoe / 100)

/-- The month of a day, from 1. -/
def month (day : Int) : Int :=
  let marchMonth := (5 * dayOfYear day + 2) / 153
  if marchMonth < 10 then marchMonth + 3 else marchMonth - 9

/-- The day of the month, from 1. -/
def dayOfMonth (day : Int) : Int :=
  let marchMonth := (5 * dayOfYear day + 2) / 153
  dayOfYear day - (153 * marchMonth + 2) / 5 + 1

/-- The day of the week, from Sunday; 1970-01-01 was a Thursday. -/
def numberDaysFromSunday (day : Int) : Int :=
  (day + 4) % 7

example : (month 0, dayOfMonth 0, numberDaysFromSunday 0) = (1, 1, 4) := by decide

example : (month 19782, dayOfMonth 19782, numberDaysFromSunday 19782) = (2, 29, 4) := by decide

example : (month 19783, dayOfMonth 19783) = (3, 1) := by decide

/-! ## Cron expressions -/

/-- One field: any value, or a set of values. -/
inductive CronField where
  | any
  | set (values : List Nat)
  deriving DecidableEq, Repr

namespace CronField

def isAny : CronField → Bool
  | any => true
  | set _ => false

def «matches» (field : CronField) (value : Int) : Bool :=
  match field with
  | any => true
  | set values => values.any fun allowed => (allowed : Int) = value

/-- An unsigned decimal in the range of an octet. -/
def parseU8 (text : Str) : Option Nat :=
  (parseU64 text).filter (· < 256)

/-- The values from `lo` to `hi` by steps. -/
def stepped (lo hi step : Nat) : List Nat :=
  (List.range ((hi - lo) / step + 1)).map fun turn => lo + turn * step

/-- The bounds of one part of a list, without its step. -/
def parseBounds (min max : Nat) (base : Str) : Option (Nat × Nat) :=
  if base = ("*" : Str) then
    some (min, max)
  else
    match splitOnce ['-'] base with
    | some (low, high) => do
        let lo ← parseU8 low
        let hi ← parseU8 high
        return (lo, hi)
    | none => (parseU8 base).map fun value => (value, value)

/-- One part of a list: `a`, `a-b` or `*`, each with an optional step. -/
def parsePart (min max : Nat) (part : Str) : Option (List Nat) := do
  let (base, step) ← match splitOnce ['/'] part with
    | some (base, step) => (parseU8 step).map fun step => (base, step)
    | none => some (part, 1)
  if step = 0 then
    none
  else
    let (lo, hi) ← parseBounds min max base
    if lo < min ∨ max < hi ∨ hi < lo then
      none
    else
      return stepped lo hi step

/-- A field over a range of values. -/
def parse (spec : Str) (min max : Nat) : Except RsError CronField :=
  if spec = ("*" : Str) then
    .ok any
  else
    match (spec.splitOn ',').mapM (parsePart min max) with
    | some parts => .ok (set (parts.flatten.insertionSort (· ≤ ·)).dedup)
    | none => .error (.badRequest (("invalid cron field '" : Str) ++ spec ++ ("'" : Str)))

/-- The day of the week, where 7 is Sunday as well. -/
def parseDow (spec : Str) : Except RsError CronField := do
  match ← parse spec 0 7 with
  | any => return any
  | set values =>
    return set ((values.map fun value => if value = 7 then 0 else value).insertionSort
      (· ≤ ·)).dedup

end CronField

/-- An expression of five fields, evaluated in UTC. -/
structure CronSchedule where
  min : CronField
  hour : CronField
  dom : CronField
  month : CronField
  dow : CronField
  deriving DecidableEq, Repr

def parseCron (text : Str) : Except RsError CronSchedule :=
  match words text with
  | [min, hour, dom, month, dow] => do
      return {
        min := ← CronField.parse min 0 59
        hour := ← CronField.parse hour 0 23
        dom := ← CronField.parse dom 1 31
        month := ← CronField.parse month 1 12
        dow := ← CronField.parseDow dow }
  | _ =>
    .error (.badRequest (("cron '" : Str) ++ text ++
      ("' must have 5 fields: minute hour day-of-month month day-of-week" : Str)))

namespace CronSchedule

/-- Where both kinds of days are restricted, either is enough. -/
def dayMatches (cron : CronSchedule) (day : Int) : Bool :=
  let dom := cron.dom.matches (dayOfMonth day)
  let dow := cron.dow.matches (numberDaysFromSunday day)
  if cron.dom.isAny && cron.dow.isAny then true
  else if cron.dow.isAny then dom
  else if cron.dom.isAny then dow
  else dom || dow

/-- Whether an expression matches a minute, counted from 1970-01-01 00:00 UTC. -/
def «matches» (cron : CronSchedule) (minute : Int) : Bool :=
  let day := minute / 1440
  cron.min.matches (minute % 60) && cron.hour.matches (minute / 60 % 24) &&
    cron.month.matches (Scheduler.month day) && cron.dayMatches day

end CronSchedule

/-! ## Accepted expressions -/

namespace CronField

theorem bounds_of_mem_stepped {lo hi step value : Nat} (ordered : lo ≤ hi)
    (member : value ∈ stepped lo hi step) : lo ≤ value ∧ value ≤ hi := by
  obtain ⟨turn, isTurn, rfl⟩ := List.mem_map.mp member
  have few : turn ≤ (hi - lo) / step := Nat.lt_succ_iff.mp (List.mem_range.mp isTurn)
  have span : turn * step ≤ hi - lo :=
    (Nat.mul_le_mul_right step few).trans (Nat.div_mul_le_self (hi - lo) step)
  omega

/-- A field that was read has values, all of them in its range. -/
def Fits (min max : Nat) (values : List Nat) : Prop :=
  values ≠ [] ∧ ∀ value ∈ values, min ≤ value ∧ value ≤ max

variable {min max : Nat} {values : List Nat} {spec : Str}

theorem fits_of_parsePart {part : Str} (read : parsePart min max part = some values) :
    Fits min max values := by
  have core : ∀ (base : Str) (step : Nat), (if step = 0 then none else
      (parseBounds min max base).bind fun bounds =>
        if bounds.1 < min ∨ max < bounds.2 ∨ bounds.2 < bounds.1 then none
        else some (stepped bounds.1 bounds.2 step)) = some values → Fits min max values := by
    intro base step read
    split at read
    · cases read
    · obtain ⟨bounds, -, read⟩ := Option.bind_eq_some_iff.mp read
      split at read
      · cases read
      next inside =>
        cases read
        constructor
        · simp [stepped]
        · intro value member
          have within := bounds_of_mem_stepped (by omega) member
          omega
  unfold parsePart at read
  dsimp only at read
  cases cut : splitOnce ['/'] part with
  | none =>
    rw [cut] at read
    exact core part 1 read
  | some pieces =>
    rw [cut] at read
    obtain ⟨⟨base, step⟩, -, read⟩ := Option.bind_eq_some_iff.mp read
    exact core base step read

theorem fits_of_mapM {specs : List Str} {parts : List (List Nat)} (nonempty : specs ≠ [])
    (read : specs.mapM (parsePart min max) = some parts) :
    Fits min max parts.flatten := by
  induction specs generalizing parts with
  | nil => exact absurd rfl nonempty
  | cons spec specs ih =>
    rw [List.mapM_cons] at read
    obtain ⟨first, isFirst, read⟩ := Option.bind_eq_some_iff.mp read
    obtain ⟨rest, isRest, read⟩ := Option.bind_eq_some_iff.mp read
    cases read
    have one := fits_of_parsePart isFirst
    rw [List.flatten_cons]
    constructor
    · simp [one.1]
    · intro value member
      rcases List.mem_append.mp member with here | later
      · exact one.2 value here
      · cases specs with
        | nil =>
          cases isRest
          cases later
        | cons next specs => exact (ih (List.cons_ne_nil _ _) isRest).2 value later

theorem Fits.ordered (fits : Fits min max values) :
    Fits min max (values.insertionSort (· ≤ ·)).dedup := by
  constructor
  · obtain ⟨value, member⟩ := List.exists_mem_of_ne_nil values fits.1
    exact List.ne_nil_of_mem (List.mem_dedup.mpr ((List.mem_insertionSort _).mpr member))
  · intro value member
    exact fits.2 value ((List.mem_insertionSort _).mp (List.mem_dedup.mp member))

theorem fits_of_parse (read : parse spec min max = .ok (set values)) : Fits min max values := by
  unfold parse at read
  split at read
  · cases read
  · cases parts_ : (spec.splitOn ',').mapM (parsePart min max) with
    | none =>
      rw [parts_] at read
      cases read
    | some parts =>
      rw [parts_] at read
      cases read
      exact (fits_of_mapM (List.splitOn_ne_nil _ _) parts_).ordered

theorem Fits.exists_matches (fits : Fits min max values) :
    ∃ value : Int, min ≤ value ∧ value ≤ max ∧ (set values).matches value = true := by
  obtain ⟨value, member⟩ := List.exists_mem_of_ne_nil values fits.1
  have bound := fits.2 value member
  refine ⟨value, by omega, by omega, ?_⟩
  exact List.any_eq_true.mpr ⟨value, member, decide_eq_true rfl⟩

/-- A field that was read matches a value of its range. -/
theorem exists_matches {field : CronField} (range : min ≤ max)
    (read : parse spec min max = .ok field) :
    ∃ value : Int, min ≤ value ∧ value ≤ max ∧ field.matches value = true := by
  cases field with
  | any => exact ⟨min, le_refl _, by omega, rfl⟩
  | set values => exact (fits_of_parse read).exists_matches

theorem exists_matches_dow {field : CronField} (read : parseDow spec = .ok field) :
    ∃ value : Int, 0 ≤ value ∧ value < 7 ∧ field.matches value = true := by
  unfold parseDow at read
  cases whole : parse spec 0 7 with
  | error problem =>
    rw [whole] at read
    cases read
  | ok parsed =>
    rw [whole] at read
    cases parsed with
    | any =>
      cases read
      exact ⟨0, by omega, by omega, rfl⟩
    | set values =>
      cases read
      have fits := fits_of_parse whole
      have mapped : Fits 0 6 (values.map fun value => if value = 7 then 0 else value) := by
        constructor
        · simp [fits.1]
        · intro value member
          obtain ⟨original, isOriginal, rfl⟩ := List.mem_map.mp member
          have bound := fits.2 original isOriginal
          split
          · omega
          · omega
      obtain ⟨value, low, high, matched⟩ := mapped.ordered.exists_matches
      exact ⟨value, low, by omega, matched⟩

end CronField

section Accepted

variable {text : Str} {cron : CronSchedule} (accepted : parseCron text = .ok cron)

include accepted

/-- The fields of an accepted expression, each as it was read. -/
theorem fields_of_parseCron : ∃ min hour dow, CronField.parse min 0 59 = .ok cron.min ∧
    CronField.parse hour 0 23 = .ok cron.hour ∧ CronField.parseDow dow = .ok cron.dow := by
  unfold parseCron at accepted
  split at accepted
  next min hour dom month dow _ =>
    cases readMin : CronField.parse min 0 59 <;> rw [readMin] at accepted
    · cases accepted
    cases readHour : CronField.parse hour 0 23 <;> rw [readHour] at accepted
    · cases accepted
    cases readDom : CronField.parse dom 1 31 <;> rw [readDom] at accepted
    · cases accepted
    cases readMonth : CronField.parse month 1 12 <;> rw [readMonth] at accepted
    · cases accepted
    cases readDow : CronField.parseDow dow <;> rw [readDow] at accepted
    · cases accepted
    cases accepted
    exact ⟨min, hour, dow, readMin, readHour, readDow⟩
  next => cases accepted

/-- An accepted expression matches a minute of every day that its other fields admit. -/
theorem exists_minute_of_day {day : Int} (inMonth : cron.month.matches (month day) = true)
    (onDay : cron.dayMatches day = true) :
    ∃ minute, minute / 1440 = day ∧ cron.matches minute = true := by
  obtain ⟨min, hour, -, readMin, readHour, -⟩ := fields_of_parseCron accepted
  obtain ⟨m, low, high, isMinute⟩ := CronField.exists_matches (by decide) readMin
  obtain ⟨h, low', high', isHour⟩ := CronField.exists_matches (by decide) readHour
  have ofDay : (day * 1440 + h * 60 + m) / 1440 = day := by omega
  have ofHour : (day * 1440 + h * 60 + m) / 60 % 24 = h := by omega
  have ofMinute : (day * 1440 + h * 60 + m) % 60 = m := by omega
  refine ⟨day * 1440 + h * 60 + m, ofDay, ?_⟩
  unfold CronSchedule.matches
  dsimp only
  rw [ofDay, ofHour, ofMinute, isMinute, isHour, inMonth, onDay]
  rfl

end Accepted

/-- An accepted expression fires on exactly the days that its month and its two kinds of days
admit; its minutes and hours never keep it from firing. -/
theorem accepted_cron_fires_on_its_days {text : Str} {cron : CronSchedule}
    (accepted : parseCron text = .ok cron) (day : Int) :
    (∃ minute, minute / 1440 = day ∧ cron.matches minute = true) ↔
      cron.month.matches (month day) = true ∧ cron.dayMatches day = true := by
  constructor
  · rintro ⟨minute, rfl, matched⟩
    unfold CronSchedule.matches at matched
    simp only [Bool.and_eq_true] at matched
    exact ⟨matched.1.2, matched.2⟩
  · rintro ⟨inMonth, onDay⟩
    exact exists_minute_of_day accepted inMonth onDay

/-- Half past nine on weekdays. -/
def weekdays : CronSchedule where
  min := .set [30]
  hour := .set [9]
  dom := .any
  month := .any
  dow := .set [1, 2, 3, 4, 5]

theorem parseCron_weekdays : parseCron "30 9 * * 1-5" = .ok weekdays := by
  decide +kernel

theorem weekdays_fire_on_thursday : ∃ minute, minute / 1440 = 0 ∧ weekdays.matches minute = true :=
  (accepted_cron_fires_on_its_days parseCron_weekdays 0).mpr (by decide)

/-- An accepted expression for every month that restricts the days of the week, or no days,
fires within every seven days. -/
theorem weekly_cron_fires_each_week {text : Str} {cron : CronSchedule}
    (accepted : parseCron text = .ok cron) (monthly : cron.month = .any)
    (weekly : cron.dow.isAny = false ∨ cron.dom.isAny = true) (day : Int) :
    ∃ minute, day * 1440 ≤ minute ∧ minute < (day + 7) * 1440 ∧ cron.matches minute = true := by
  obtain ⟨-, -, dow, -, -, readDow⟩ := fields_of_parseCron accepted
  obtain ⟨weekday, low, high, isWeekday⟩ := CronField.exists_matches_dow readDow
  -- the next day of that weekday
  obtain ⟨next, after, soon, ofWeek⟩ :
      ∃ next, day ≤ next ∧ next < day + 7 ∧ numberDaysFromSunday next = weekday := by
    refine ⟨day + (weekday - (day + 4)) % 7, ?_, ?_, ?_⟩
    · omega
    · omega
    · unfold numberDaysFromSunday
      omega
  have onDay : cron.dayMatches next = true := by
    unfold CronSchedule.dayMatches
    dsimp only
    rw [ofWeek, isWeekday, Bool.or_true]
    cases dom : cron.dom.isAny with
    | true =>
      cases cron.dow.isAny with
      | true => rfl
      | false => rfl
    | false =>
      rw [dom] at weekly
      rw [weekly.resolve_right (by decide)]
      rfl
  obtain ⟨minute, ofDay, matched⟩ := exists_minute_of_day accepted
    (by rw [monthly]; rfl) onDay
  refine ⟨minute, ?_, ?_, matched⟩
  · omega
  · omega

theorem weekdays_fire_in_the_first_week :
    ∃ minute, 0 * 1440 ≤ minute ∧ minute < (0 + 7) * 1440 ∧ weekdays.matches minute = true :=
  weekly_cron_fires_each_week parseCron_weekdays rfl (.inl rfl) 0

/-! ## Schedules of mounts -/

/-- A period in milliseconds, or a cron expression. -/
inductive Schedule where
  | interval (everyMs : Nat)
  | cron (cron : CronSchedule)
  deriving DecidableEq, Repr

/-- The bucket of an interval at a time, both in milliseconds from the epoch. -/
def intervalBucketMs (nowMs : Int) (everyMs : Nat) : Int :=
  let period : Int := max everyMs 1
  nowMs / period * period

end Rs2Runtime.Scheduler
