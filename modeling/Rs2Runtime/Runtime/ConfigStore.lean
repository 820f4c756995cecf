import Rs2Runtime.Data.Machine
import Rs2Runtime.Data.Table
import Rs2Runtime.Services.Conditional
import Rs2Runtime.Services.Secrets

/-!
Contract: replacement of a tenant's configuration in the file-backed store, interrupted at every
file operation.

Owns:
- the steps of a put: restoring secrets, the check of the version, the temporary file and its
  renaming, with the fallback for systems that do not rename over a file;
- when every put that succeeds has replaced the version it names.

Does not own: the rebuild of the tenant after a put, or what makes a configuration valid.
-/

namespace Rs2Runtime.Runtime.ConfigStore

open Text Data Json Rs2Runtime.Services

/-- What the store takes from its surroundings: the version of a text, the printed and the parsed
form of a configuration, and the dry build that validates one. -/
structure Store where
  codec : Codec
  materializedBodyBytes : Nat
  versionOf : Str → Str
  pretty : Value → Str
  parse : Str → Option Value
  build : Value → Except RsError Unit

/-- The version that an entity tag names. -/
def etagVersion (raw : Str) : Str :=
  trimMatches (· = '"') (dropWeak (trim raw).length (trim raw))

/-- A configuration to be stored: what was sent, its form with secrets restored, the version it
is to replace, and the text that the secrets were restored from. -/
structure Change where
  body : Value
  config : Value
  expected : Option Str
  source : Option Str
  deriving DecidableEq

/-- The file operation that a put does next.  `checked` is the text whose version was checked. -/
inductive Phase where
  | reading (body : Value) (expected : Option Str)
  | checking (change : Change)
  | writing (change : Change) (checked : Option Str)
  | moving (change : Change) (checked : Option Str)
  | removing (change : Change)
  | movingAgain (change : Change)
  deriving DecidableEq

/-- The put has written the temporary file and is going to rename it. -/
def Phase.holdsTmp : Phase → Bool
  | .moving _ _ | .removing _ | .movingAgain _ => true
  | .reading _ _ | .checking _ | .writing _ _ => false

/-- A put that reports success, with the text it replaced and the one it left. -/
structure Success where
  change : Change
  replaced : Option Str
  stored : Str
  deriving DecidableEq

/-- The configuration file and the temporary one, the puts under way, and those that succeeded,
newest first.  `held` are the texts that the file has held, newest first. -/
structure System where
  file : Option Str
  tmp : Option Str
  puts : Table Nat Phase
  log : List Success
  held : List Str

def System.start (initial : Str) : System :=
  ⟨some initial, none, .empty, [], [initial]⟩

namespace System

def goOn (system : System) (id : Nat) (phase : Phase) : System :=
  { system with puts := system.puts.put id phase }

def fail (system : System) (id : Nat) : System :=
  { system with puts := system.puts.erase id }

/-- The temporary file takes the place of the configuration. -/
def install (system : System) (id : Nat) (change : Change) (text : Str) : System where
  file := some text
  tmp := none
  puts := system.puts.erase id
  log := ⟨change, system.file, text⟩ :: system.log
  held := text :: system.held

end System

variable (store : Store)

/-- The text a change is stored as. -/
def Store.text (change : Change) : Str :=
  store.pretty change.config

/-- A body with the secrets of a stored text. -/
def Store.restored (body : Value) (file : Option Str) : Except RsError Value :=
  restoreSecrets body ((file.bind store.parse).getD .null)

/-- A put arrives. -/
def put (system : System) (id : Nat) (msg : Message) : Option System :=
  if system.puts.find id = none then
    match msg.body with
    | none => some system
    | some body =>
      match body.asJson store.codec store.materializedBodyBytes with
      | .error _ => some system
      | .ok read =>
        some (system.goOn id (.reading read.1 ((msg.header "if-match").map etagVersion)))
  else
    none

/-- The configuration is read for its secrets; the restored one is validated. -/
def read (system : System) (id : Nat) : Option System :=
  match system.puts.find id with
  | some (.reading body expected) =>
    match store.restored body system.file with
    | .error _ => some (system.fail id)
    | .ok config =>
      match store.build config with
      | .error _ => some (system.fail id)
      | .ok _ => some (system.goOn id (.checking ⟨body, config, expected, system.file⟩))
  | _ => none

/-- The configuration is read for its version, if one is expected. -/
def check (system : System) (id : Nat) : Option System :=
  match system.puts.find id with
  | some (.checking change) =>
    match change.expected with
    | none => some (system.goOn id (.writing change system.file))
    | some expected =>
      if store.versionOf (system.file.getD []) = expected then
        some (system.goOn id (.writing change system.file))
      else
        some (system.fail id)
  | _ => none

/-- The temporary file is written; a write that fails leaves some text in it. -/
def write (system : System) (id : Nat) (torn : Option Str) : Option System :=
  match system.puts.find id with
  | some (.writing change checked) =>
    match torn with
    | some text => some { system.fail id with tmp := some text }
    | none =>
      some { system.goOn id (.moving change checked) with tmp := some (store.text change) }
  | _ => none

/-- The temporary file is renamed; without one, or if the system does not allow it, the
configuration is to be removed first. -/
def rename (system : System) (id : Nat) (allowed : Bool) : Option System :=
  match system.puts.find id with
  | some (.moving change _) =>
    match system.tmp, allowed with
    | some text, true => some (system.install id change text)
    | _, _ => some (system.goOn id (.removing change))
  | _ => none

def remove (system : System) (id : Nat) : Option System :=
  match system.puts.find id with
  | some (.removing change) =>
    some { system.goOn id (.movingAgain change) with file := none }
  | _ => none

def renameAgain (system : System) (id : Nat) (allowed : Bool) : Option System :=
  match system.puts.find id with
  | some (.movingAgain change) =>
    match system.tmp, allowed with
    | some text, true => some (system.install id change text)
    | _, _ => some (system.fail id)
  | _ => none

inductive Label where
  | put (id : Nat) (msg : Message)
  | read (id : Nat)
  | check (id : Nat)
  | write (id : Nat) (torn : Option Str)
  | rename (id : Nat) (allowed : Bool)
  | remove (id : Nat)
  | renameAgain (id : Nat) (allowed : Bool)

def step (system : System) : Label → Option System
  | .put id msg => put store system id msg
  | .read id => read store system id
  | .check id => check store system id
  | .write id torn => write store system id torn
  | .rename id allowed => rename system id allowed
  | .remove id => remove system id
  | .renameAgain id allowed => renameAgain system id allowed

/-! ## Compare and swap -/

/-- Every put that reports success stored its own document in place of the version it names, no
two of them name the same version, the file is the whole document of one of them or the first
one, and the secrets of each come from what it replaced. -/
structure Swapped (initial : Str) (system : System) : Prop where
  replaces : ∀ success ∈ system.log, success.stored = store.text success.change ∧
    ∃ old, success.replaced = some old ∧ success.change.expected = some (store.versionOf old)
  once : system.log.Pairwise fun first second => first.change.expected ≠ second.change.expected
  complete : system.file = some initial ∨
    ∃ success ∈ system.log, system.file = some (store.text success.change)
  secrets : ∀ success ∈ system.log,
    store.restored success.change.body success.replaced = .ok success.change.config

/-- A put may write the temporary file: no other put has it, the configuration is what this one
read and checked, and the new text has a version that the file has not had. -/
def mayWrite (system : System) : Option Phase → Bool
  | some (.writing change checked) =>
    system.puts.count Phase.holdsTmp = 0 && system.file = checked && change.source = checked &&
      store.versionOf (store.text change) ∉ system.held.map store.versionOf
  | _ => true

/-- Puts carry `If-Match`; they take turns from the read to the renaming, which the system
allows; and no version comes back. -/
def TakesTurns (system : System) : Label → Prop
  | .put _ msg => (msg.header "if-match").isSome = true
  | .write id _ => mayWrite store system (system.puts.find id) = true
  | .rename _ allowed => allowed = true
  | .read _ | .check _ | .remove _ | .renameAgain _ _ => True

instance (system : System) : DecidablePred (TakesTurns store system)
  | .put _ msg => inferInstanceAs (Decidable ((msg.header "if-match").isSome = true))
  | .write id _ => inferInstanceAs (Decidable (mayWrite store system (system.puts.find id) = true))
  | .rename _ allowed => inferInstanceAs (Decidable (allowed = true))
  | .read _ | .check _ | .remove _ | .renameAgain _ _ => isTrue trivial

/-! ## The invariant -/

/-- The version of the checked text is expected, and the secrets were restored. -/
structure Ready (change : Change) (checked : Option Str) : Prop where
  restored : store.restored change.body change.source = .ok change.config
  expected : change.expected = some (store.versionOf (checked.getD []))

/-- A put that renames finds its own text in the temporary file and the configuration as it read
and checked it. -/
structure Renames (file tmp : Option Str) (held : List Str) (change : Change)
    (checked : Option Str) : Prop where
  ready : Ready store change checked
  file : file = checked
  source : change.source = checked
  tmp : tmp = some (store.text change)
  fresh : store.versionOf (store.text change) ∉ held.map store.versionOf

def PhaseSound (system : System) : Phase → Prop
  | .reading _ expected => expected.isSome = true
  | .checking change =>
    change.expected.isSome = true ∧
      store.restored change.body change.source = .ok change.config
  | .writing change checked => Ready store change checked
  | .moving change checked => Renames store system.file system.tmp system.held change checked
  | .removing _ | .movingAgain _ => False

structure Sound (initial : Str) (system : System) : Prop where
  file : system.file = system.held.head?
  held : system.held = system.log.map (fun success => store.text success.change) ++ [initial]
  expected : system.log.map (fun success => success.change.expected) =
    system.held.tail.map fun text => some (store.versionOf text)
  versions : (system.held.map store.versionOf).Nodup
  successes : ∀ success ∈ system.log, success.stored = store.text success.change ∧
    (∃ old, success.replaced = some old ∧
      success.change.expected = some (store.versionOf old)) ∧
    store.restored success.change.body success.replaced = .ok success.change.config
  phases : ∀ id phase, system.puts.find id = some phase → PhaseSound store system phase
  single : system.puts.count Phase.holdsTmp ≤ 1

variable {store} {initial : Str} {system next : System} {id : Nat}

/-- Phases before the temporary file is written do not depend on the files. -/
theorem PhaseSound.of_not_holdsTmp {system other : System} {phase : Phase}
    (early : phase.holdsTmp = false) (sound : PhaseSound store system phase) :
    PhaseSound store other phase := by
  cases phase with
  | reading | checking | writing => exact sound
  | moving | removing | movingAgain => cases early

theorem holdsTmp_eq_false_of_count {puts : Table Nat Phase} {id : Nat} {phase : Phase}
    (none_ : puts.count Phase.holdsTmp = 0) (found : puts.find id = some phase) :
    phase.holdsTmp = false := by
  have counted := Table.count_eq_of_find found Phase.holdsTmp
  by_contra holds
  rw [if_pos (by simpa using holds)] at counted
  omega

/-- A put goes on to a phase in which it does not hold the temporary file. -/
theorem Sound.goOn (sound : Sound store initial system) {phase : Phase}
    (phaseSound : PhaseSound store system phase) (early : phase.holdsTmp = false) :
    Sound store initial (system.goOn id phase) where
  file := sound.file
  held := sound.held
  expected := sound.expected
  versions := sound.versions
  successes := sound.successes
  phases := by
    intro other found present
    rw [System.goOn, Table.find_put] at present
    split at present
    · cases present
      exact phaseSound
    · exact sound.phases other found present
  single := by
    rw [System.goOn, Table.count_put, early]
    exact (Table.count_erase_le _ _ _).trans sound.single

theorem Sound.fail (sound : Sound store initial system) : Sound store initial (system.fail id) where
  file := sound.file
  held := sound.held
  expected := sound.expected
  versions := sound.versions
  successes := sound.successes
  phases := by
    intro other found present
    rw [System.fail, Table.find_erase] at present
    split at present
    · cases present
    · exact sound.phases other found present
  single := (Table.count_erase_le _ _ _).trans sound.single

/-! ## Steps -/

theorem put_sound {msg : Message} (sound : Sound store initial system)
    (carries : (msg.header "if-match").isSome = true)
    (stepped : put store system id msg = some next) : Sound store initial next := by
  unfold put at stepped
  split at stepped
  case isFalse => cases stepped
  case isTrue =>
    split at stepped
    next => cases stepped; exact sound
    next body =>
      split at stepped
      next => cases stepped; exact sound
      next body read =>
        cases stepped
        refine sound.goOn ?_ rfl
        rw [PhaseSound, Option.isSome_map]
        exact carries

theorem read_sound (sound : Sound store initial system)
    (stepped : read store system id = some next) : Sound store initial next := by
  unfold read at stepped
  split at stepped
  case h_2 => cases stepped
  case h_1 body expected found =>
    have carries : expected.isSome = true := sound.phases id _ found
    split at stepped
    next => cases stepped; exact sound.fail
    next config restored =>
      split at stepped
      next => cases stepped; exact sound.fail
      next => cases stepped; exact sound.goOn ⟨carries, restored⟩ rfl

theorem check_sound (sound : Sound store initial system)
    (stepped : check store system id = some next) : Sound store initial next := by
  unfold check at stepped
  split at stepped
  case h_2 => cases stepped
  case h_1 change found =>
    obtain ⟨carries, restored⟩ := sound.phases id _ found
    split at stepped
    next absent =>
      rw [absent] at carries
      cases carries
    next expected isExpected =>
      split at stepped
      next hits =>
        cases stepped
        exact sound.goOn ⟨restored, by rw [isExpected, hits]⟩ rfl
      next => cases stepped; exact sound.fail

theorem mayWrite_eq_true {change : Change} {checked : Option Str}
    (may : mayWrite store system (some (.writing change checked)) = true) :
    system.puts.count Phase.holdsTmp = 0 ∧ system.file = checked ∧ change.source = checked ∧
      store.versionOf (store.text change) ∉ system.held.map store.versionOf := by
  simpa [mayWrite, and_assoc] using may

/-- While no put holds the temporary file, its content does not matter. -/
theorem Sound.with_tmp (sound : Sound store initial system)
    (free : system.puts.count Phase.holdsTmp = 0) (tmp : Option Str) :
    Sound store initial { system with tmp := tmp } where
  file := sound.file
  held := sound.held
  expected := sound.expected
  versions := sound.versions
  successes := sound.successes
  phases := fun other phase found =>
    (sound.phases other phase found).of_not_holdsTmp (holdsTmp_eq_false_of_count free found)
  single := sound.single

theorem write_sound {torn : Option Str} (sound : Sound store initial system)
    (may : mayWrite store system (system.puts.find id) = true)
    (stepped : write store system id torn = some next) : Sound store initial next := by
  unfold write at stepped
  split at stepped
  case h_2 => cases stepped
  case h_1 change checked found =>
    rw [found] at may
    obtain ⟨free, file, source, fresh⟩ := mayWrite_eq_true may
    have ready : Ready store change checked := sound.phases id _ found
    split at stepped
    next text => cases stepped; exact (sound.with_tmp free (some text)).fail
    next =>
      cases stepped
      have rewritten := sound.with_tmp free (some (store.text change))
      refine ⟨rewritten.file, rewritten.held, rewritten.expected, rewritten.versions,
        rewritten.successes, ?_, ?_⟩
      · intro other phase present
        dsimp only [System.goOn] at present
        rw [Table.find_put] at present
        split at present
        · cases present
          exact ⟨ready, file, source, rfl, fresh⟩
        · exact rewritten.phases other phase present
      · dsimp only [System.goOn]
        rw [Table.count_put]
        have none_ := Table.count_erase_le system.puts id Phase.holdsTmp
        rw [free] at none_
        have holds : (Phase.moving change checked).holdsTmp = true := rfl
        rw [if_pos holds]
        exact Nat.succ_le_succ none_

/-- The file holds the newest text. -/
theorem Sound.exists_file (sound : Sound store initial system) :
    ∃ current older, system.held = current :: older ∧ system.file = some current := by
  cases held : system.held with
  | nil =>
    have shape := sound.held
    rw [held] at shape
    exact absurd shape.symm (by simp)
  | cons current older =>
    have file := sound.file
    rw [held] at file
    exact ⟨current, older, rfl, file⟩

/-- The put that renames replaces what it checked by its own text. -/
theorem rename_sound (sound : Sound store initial system)
    (stepped : rename system id true = some next) : Sound store initial next := by
  unfold rename at stepped
  split at stepped
  case h_2 => cases stepped
  case h_1 change checked found =>
    have renames : Renames store system.file system.tmp system.held change checked :=
      sound.phases id _ found
    obtain ⟨current, older, held, file⟩ := sound.exists_file
    have checkedText : checked = some current := renames.file.symm.trans file
    have expected : change.expected = some (store.versionOf current) := by
      rw [renames.ready.expected, checkedText]
      rfl
    have restored : store.restored change.body system.file = .ok change.config := by
      rw [renames.file, ← renames.source]
      exact renames.ready.restored
    have others : (system.puts.erase id).count Phase.holdsTmp = 0 := by
      have counted := Table.count_eq_of_find found Phase.holdsTmp
      have holds : (Phase.moving change checked).holdsTmp = true := rfl
      rw [if_pos holds] at counted
      have single := sound.single
      omega
    rw [renames.tmp] at stepped
    cases stepped
    exact
      { file := rfl
        held := congrArg (List.cons _) sound.held
        expected := by
          change change.expected :: _ = system.held.map _
          rw [sound.expected, held, expected]
          rfl
        versions := List.nodup_cons.mpr ⟨renames.fresh, sound.versions⟩
        successes := by
          intro success member
          rcases List.mem_cons.mp member with rfl | earlier
          · exact ⟨rfl, ⟨current, file, expected⟩, restored⟩
          · exact sound.successes success earlier
        phases := by
          intro other phase present
          have early := holdsTmp_eq_false_of_count others present
          refine PhaseSound.of_not_holdsTmp early (sound.phases other phase ?_)
          rw [System.install, Table.find_erase] at present
          split at present
          · cases present
          · exact present
        single := (Table.count_erase_le _ _ _).trans sound.single }

theorem step_sound (system : System) (label : Label) (next : System)
    (sound : Sound store initial system) (takesTurns : TakesTurns store system label)
    (stepped : step store system label = some next) : Sound store initial next := by
  cases label with
  | put id msg => exact put_sound sound takesTurns stepped
  | read id => exact read_sound sound stepped
  | check id => exact check_sound sound stepped
  | write id torn => exact write_sound sound takesTurns stepped
  | rename id allowed =>
    obtain rfl : allowed = true := takesTurns
    exact rename_sound sound stepped
  | remove id =>
    simp only [step, remove] at stepped
    split at stepped
    case h_2 => cases stepped
    case h_1 change found => exact (sound.phases id _ found).elim
  | renameAgain id allowed =>
    simp only [step, renameAgain] at stepped
    split at stepped
    case h_2 => cases stepped
    case h_1 change found => exact (sound.phases id _ found).elim

theorem sound_start (store : Store) (initial : Str) : Sound store initial (.start initial) where
  file := rfl
  held := rfl
  expected := rfl
  versions := List.nodup_singleton _
  successes := by
    intro success member
    cases member
  phases := by
    intro id phase found
    cases found
  single := Nat.zero_le _

theorem Sound.swapped (sound : Sound store initial system) : Swapped store initial system where
  replaces := fun success member =>
    ⟨(sound.successes success member).1, (sound.successes success member).2.1⟩
  once := by
    have distinct : (system.log.map fun success => success.change.expected).Nodup := by
      rw [sound.expected]
      have tail : (system.held.tail.map store.versionOf).Nodup := by
        rw [List.map_tail]
        exact sound.versions.tail
      have some_ := tail.map (Option.some_injective Str)
      rwa [List.map_map] at some_
    exact List.pairwise_map.mp distinct
  complete := by
    have file := sound.file
    rw [sound.held] at file
    cases log : system.log with
    | nil =>
      rw [log] at file
      exact .inl file
    | cons success older =>
      rw [log] at file
      exact .inr ⟨success, List.mem_cons_self, file⟩
  secrets := fun success member => (sound.successes success member).2.2

/-- In every run in which puts carry `If-Match`, take turns and bring no version back, every put
that succeeds has replaced the version it names, and the file is a whole document. -/
theorem puts_compare_and_swap (store : Store) (initial : Str) (labels : List Label)
    (final : System)
    (takeTurns : Machine.AllMeet (step store) (TakesTurns store) (.start initial) labels)
    (ran : Machine.run (step store) (.start initial) labels = some final) :
    Swapped store initial final :=
  (Machine.run_invariant step_sound (sound_start store initial) takeTurns ran).swapped

/-! ## Puts of two editors -/

/-- A store in which a configuration is a text and its own version. -/
def plainStore : Store where
  codec := Tagged.codec
  materializedBodyBytes := 1000
  versionOf := fun text => text
  pretty := fun config => config.asStr.getD []
  parse := fun text => some (.str text)
  build := fun _ => .ok ()

/-- A put of a text in place of a version. -/
def putOver (version text : Str) : Message :=
  { Message.request .put "/services/raw" "t" "trace" with
    headers := [("if-match", '"' :: version ++ ['"'])]
    body := some (Body.fromJson Tagged.codec (.str text)) }

/-- Two puts that take turns: the second arrives while the first is under way. -/
def inTurn : List Label :=
  [.put 0 (putOver "a" "b"), .read 0, .put 1 (putOver "b" "c"), .check 0, .write 0 none,
    .rename 0 true, .read 1, .check 1, .write 1 none, .rename 1 true]

theorem puts_in_turn_swap :
    ∃ final, Machine.run (step plainStore) (.start "a") inTurn = some final ∧
      final.file = some ("c" : Str) ∧ final.log.length = 2 ∧ Swapped plainStore "a" final := by
  have takeTurns : Machine.AllMeet (step plainStore) (TakesTurns plainStore) (.start "a")
      inTurn := by
    decide +kernel
  have stored : (Machine.run (step plainStore) (.start "a") inTurn).any
      (fun final => decide (final.file = some ("c" : Str) ∧ final.log.length = 2)) := by
    decide +kernel
  obtain ⟨final, ran, shown⟩ := (Option.any_eq_true _ _).mp stored
  obtain ⟨file, log⟩ := of_decide_eq_true shown
  exact ⟨final, ran, file, log, puts_compare_and_swap plainStore "a" inTurn final takeTurns ran⟩

/-- Two puts check the version before either of them writes. -/
def bothChecked : List Label :=
  [.put 0 (putOver "a" "b"), .put 1 (putOver "a" "c"), .read 0, .read 1, .check 0, .check 1]

/-- One put after the other writes and renames. -/
def bothSucceed : List Label :=
  bothChecked ++ [.write 0 none, .rename 0 true, .write 1 none, .rename 1 true]

/-- Both puts write the temporary file before either of them renames it. -/
def sharedTmp : List Label :=
  bothChecked ++ [.write 0 none, .write 1 none, .rename 0 true, .rename 1 true, .remove 1]

/-- Two puts that name one version both succeed; and where they share the temporary file, the
first stores the document of the second, which fails and removes the configuration. -/
theorem concurrent_puts_lose_updates :
    (∃ final, Machine.run (step plainStore) (.start "a") bothSucceed = some final ∧
      final.log.map (fun success => success.change.expected) = [some ("a" : Str), some ("a" : Str)] ∧
      ¬ Swapped plainStore "a" final) ∧
    ∃ final, Machine.run (step plainStore) (.start "a") sharedTmp = some final ∧
      final.log.map Success.stored = [("c" : Str)] ∧ final.file = none ∧
      ¬ Swapped plainStore "a" final := by
  have both : (Machine.run (step plainStore) (.start "a") bothSucceed).any
      (fun final => decide (final.log.map (fun success => success.change.expected) =
        [some ("a" : Str), some ("a" : Str)])) := by
    decide +kernel
  have shared : (Machine.run (step plainStore) (.start "a") sharedTmp).any
      (fun final => decide (final.log.map Success.stored = [("c" : Str)] ∧ final.file = none)) := by
    decide +kernel
  obtain ⟨final, ran, shown⟩ := (Option.any_eq_true _ _).mp both
  have same := of_decide_eq_true shown
  obtain ⟨final', ran', shown'⟩ := (Option.any_eq_true _ _).mp shared
  obtain ⟨stored, gone⟩ := of_decide_eq_true shown'
  refine ⟨⟨final, ran, same, fun swapped => ?_⟩, ⟨final', ran', stored, gone, fun swapped => ?_⟩⟩
  · have distinct := List.pairwise_map.mpr swapped.once
    rw [same] at distinct
    exact absurd distinct (by simp)
  · rcases swapped.complete with first | ⟨success, -, file⟩
    · rw [gone] at first
      cases first
    · rw [gone] at file
      cases file

end Rs2Runtime.Runtime.ConfigStore
