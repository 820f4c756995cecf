import Rs2Runtime.Data.Keyed
import Rs2Runtime.Data.Outcome
import Rs2Runtime.Json.Rounding
import Rs2Runtime.Json.Same

/-!
Contract: the configuration that a transfer between two nodes plans for its target.

Owns:
- the plan: which mounts the target gets, in whole-configuration and scoped mode, with the
  secrets that it cannot restore;
- where the mounts of a plan come from, in both modes.

Does not own: the transfer itself, or the data below mounts.
-/

namespace Rs2Runtime.Cli.Sync

open Text Data Json

/-! ## The plan -/

/-- The marker that the server round-trips in place of a secret. -/
def secretMask : Str := "<secret>"

/-- What to transfer: every mount or only the named ones, and whether what only the target has
is deleted. -/
structure Scope where
  mounts : Option (List Str)
  prune : Bool
  deriving DecidableEq, Repr

/-- The path of a mount without the slashes around it. -/
def trimmed (path : Str) : Str :=
  trimMatches (· = '/') path

def sameMount (left right : Str) : Bool :=
  trimmed left = trimmed right

def mountPath (mount : Value) : Str :=
  ((mount.get? "path").bind Value.asStr).getD []

def mountService (mount : Value) : Str :=
  ((mount.get? "service").bind Value.asStr).getD []

/-- Whether a mount is the control mount. -/
def isServices (mount : Value) : Bool :=
  mountService mount = "services"

def mountsOf (config : Value) : List Value :=
  ((config.get? "mounts").bind Value.asArray).getD []

structure Plan where
  config : Value
  changedMounts : List Str
  prunedMounts : List Str
  keptMounts : List Str
  missingSecrets : List Str

/-- Keep the target's control mount exactly where, and how, it is. -/
def withControl (targets out : List Value) : List Value :=
  match targets.find? isServices with
  | none => out
  | some control =>
    let place := min (targets.findIdx isServices) out.length
    out.take place ++ control :: out.drop place

/-- The target's mounts at paths where the source has none. -/
def targetOnly (sources targets : List Value) : List Value :=
  targets.filter fun mount =>
    !isServices mount && !sources.any fun source => sameMount (mountPath source) (mountPath mount)

def wholeMounts (sources targets : List Value) (prune : Bool) : List Value :=
  withControl targets (sources.filter fun mount => !isServices mount) ++
    if prune then [] else targetOnly sources targets

/-- Put the source's mount at a wanted path in the place of the target's. -/
def placeMount (sources out : List Value) (wanted : Str) : Except Str (List Value) :=
  match sources.find? fun mount => sameMount (mountPath mount) wanted with
  | none => .error (("source has no mount at " : Str) ++ wanted)
  | some source =>
    if isServices source then
      .error (wanted ++
        (" is the source's `services` control mount — it cannot be transferred" : Str))
    else
      match out.find? fun mount => sameMount (mountPath mount) wanted with
      | some current =>
        if isServices current then
          .error (wanted ++
            (" is the target's `services` control mount — refusing to replace it" : Str))
        else
          .ok (out.set (out.findIdx fun mount => sameMount (mountPath mount) wanted) source)
      | none => .ok (out ++ [source])

def placeMounts (sources : List Value) : List Str → List Value → Except Str (List Value)
  | [], out => .ok out
  | wanted :: rest, out => (placeMount sources out wanted).bind (placeMounts sources rest)

/-- Whether the target's entry at a mount's path is another one, or none. -/
def differs (targets : List Value) (mount : Value) : Bool :=
  match targets.find? fun target => sameMount (mountPath target) (mountPath mount) with
  | some current => !current.same mount
  | none => true

mutual

/-- The places of the marker where the current value has no text to restore. -/
def walkMasks (current : Value) (pointer : Str) : Value → List Str
  | .str text =>
    if text = secretMask then
      if (current.asStr.any fun stored => !stored.isEmpty) then [] else [pointer]
    else
      []
  | .obj fields => walkFields current pointer fields
  | .arr items => walkItems current pointer 0 items
  | .null | .bool _ | .num _ => []

def walkFields (current : Value) (pointer : Str) : List (Str × Value) → List Str
  | [] => []
  | (key, value) :: rest =>
    walkMasks ((current.get? key).getD .null) (pointer ++ '/' :: key) value ++
      walkFields current pointer rest

def walkItems (current : Value) (pointer : Str) (index : Nat) : List Value → List Str
  | [] => []
  | value :: rest =>
    walkMasks ((current.asArray.bind fun items => items[index]?).getD .null)
        (pointer ++ '/' :: natStr index) value ++
      walkItems current pointer (index + 1) rest

end

/-- The places where the planned configuration has the marker and the target no text. -/
def missingSecrets (planned target : Value) : List Str :=
  walkMasks target [] planned

/-- The mounts that the target should have. -/
def plannedMounts (source target : Value) (scope : Scope) : Except Str (List Value) :=
  match scope.mounts with
  | none => .ok (wholeMounts (mountsOf source) (mountsOf target) scope.prune)
  | some wanted => placeMounts (mountsOf source) wanted (mountsOf target)

/-- The mounts that only the target has: pruned, or kept; scoped mode has neither. -/
def leftOver (source target : Value) (scope : Scope) : List Str :=
  match scope.mounts with
  | none => (targetOnly (mountsOf source) (mountsOf target)).map mountPath
  | some _ => []

/-- The configuration that the target should hold. -/
def planConfig (source target : Value) (scope : Scope) : Except Str Plan := do
  let mounts ← plannedMounts source target scope
  let base := if scope.mounts.isNone then source else target
  match base.asObject with
  | none => .error "tenant config is not a JSON object"
  | some fields =>
    let config := Value.obj (OrderedMap.insert fields "mounts" (.arr mounts))
    return {
      config := config
      changedMounts := (mounts.filter (differs (mountsOf target))).map mountPath
      prunedMounts := if scope.prune then leftOver source target scope else []
      keptMounts := if scope.prune then [] else leftOver source target scope
      missingSecrets := missingSecrets config target }

/-- What mounts are told apart by. -/
def mountKey (mount : Value) : Str :=
  trimmed (mountPath mount)

/-! ## Plans and their mounts -/

/-- The configuration that a plan starts from. -/
def baseOf (source target : Value) (scope : Scope) : Value :=
  if scope.mounts.isNone then source else target

/-- The plan that given mounts and the members of the base make. -/
def planOf (source target : Value) (scope : Scope) (fields : Object) (mounts : List Value) :
    Plan where
  config := .obj (OrderedMap.insert fields "mounts" (.arr mounts))
  changedMounts := (mounts.filter (differs (mountsOf target))).map mountPath
  prunedMounts := if scope.prune then leftOver source target scope else []
  keptMounts := if scope.prune then [] else leftOver source target scope
  missingSecrets := missingSecrets (.obj (OrderedMap.insert fields "mounts" (.arr mounts))) target

theorem planConfig_eq_ok {source target : Value} {scope : Scope} {plan : Plan} :
    planConfig source target scope = .ok plan ↔
      ∃ mounts fields, plannedMounts source target scope = .ok mounts ∧
        (baseOf source target scope).asObject = some fields ∧
        plan = planOf source target scope fields mounts := by
  unfold planConfig
  rw [Outcome.bind_eq_ok]
  constructor
  · rintro ⟨mounts, planned, rest⟩
    dsimp only at rest
    split at rest
    · cases rest
    · rename_i fields known
      cases rest
      exact ⟨mounts, fields, planned, known, rfl⟩
  · rintro ⟨mounts, fields, planned, known, rfl⟩
    refine ⟨mounts, planned, ?_⟩
    dsimp only
    unfold baseOf at known
    rw [known]
    rfl

theorem obj_of_asObject {value : Value} {fields : Object} (known : value.asObject = some fields) :
    value = .obj fields := by
  cases value with
  | obj members => exact congrArg Value.obj (Option.some.inj known)
  | _ => cases known

/-! ## Scoped plans -/

/-- The first mount at a path, by its key. -/
theorem key_of_find? {mounts : List Value} {path : Str} {mount : Value}
    (found : mounts.find? (fun mount => sameMount (mountPath mount) path) = some mount) :
    mountKey mount = trimmed path := by
  have hit := List.find?_some found
  exact of_decide_eq_true hit

/-- Mounts at a path are those with the key of a mount there. -/
theorem sameMount_eq {path : Str} {source : Value} (named : mountKey source = trimmed path) :
    (fun mount => sameMount (mountPath mount) path) =
      fun mount => decide (mountKey mount = mountKey source) := by
  funext mount
  rw [named]
  rfl

/-- A placed mount is the source's of that path, over one that is not the control mount. -/
theorem placeMount_eq_ok {sources out after : List Value} {wanted : Str}
    (placed : placeMount sources out wanted = .ok after) :
    ∃ source, sources.find? (fun mount => sameMount (mountPath mount) wanted) = some source ∧
      isServices source = false ∧ after = Keyed.upsert mountKey source out ∧
      (Keyed.Distinct mountKey out →
        ∀ mount ∈ out, mountKey mount = mountKey source → isServices mount = false) := by
  unfold placeMount at placed
  cases found : sources.find? (fun mount => sameMount (mountPath mount) wanted) with
  | none =>
    rw [found] at placed
    cases placed
  | some source =>
    rw [found] at placed
    rw [sameMount_eq (key_of_find? found)] at placed
    dsimp only at placed
    refine ⟨source, rfl, ?_⟩
    cases plain : isServices source with
    | true =>
      rw [if_pos plain] at placed
      cases placed
    | false =>
      rw [if_neg (by rw [plain]; decide)] at placed
      cases there : out.find? fun mount => decide (mountKey mount = mountKey source) with
      | none =>
        rw [there] at placed
        cases placed
        refine ⟨rfl, (Keyed.upsert_of_absent there).symm, fun _ mount member same => ?_⟩
        exact absurd (decide_eq_true same) (List.find?_eq_none.mp there mount member)
      | some current =>
        rw [there] at placed
        dsimp only at placed
        split at placed
        · cases placed
        · rename_i replaceable
          cases placed
          refine ⟨rfl, (Keyed.upsert_of_present there).symm, fun distinct mount member same => ?_⟩
          have hit := List.find?_some there
          rw [distinct.eq_of_key member (List.mem_of_find?_eq_some there)
            (same.trans (of_decide_eq_true hit).symm)]
          exact Bool.eq_false_iff.mpr replaceable

/-! ## Whole configurations -/

section Whole

variable {sources targets : List Value} {prune : Bool}

/-- The source's mounts that are planned: all but its control mount. -/
def transferred (sources : List Value) : List Value :=
  sources.filter fun mount => !isServices mount

theorem mem_transferred {mount : Value} :
    mount ∈ transferred sources ↔ mount ∈ sources ∧ isServices mount = false := by
  rw [transferred, List.mem_filter, Bool.not_eq_true']

theorem mem_targetOnly {mount : Value} :
    mount ∈ targetOnly sources targets ↔ mount ∈ targets ∧ isServices mount = false ∧
      ∀ source ∈ sources, mountKey source ≠ mountKey mount := by
  rw [targetOnly, List.mem_filter, Bool.and_eq_true, Bool.not_eq_true', Bool.not_eq_true',
    List.any_eq_false]
  refine and_congr_right' (and_congr_right' (forall₂_congr fun source _ => ?_))
  exact decide_eq_true_iff.not

/-- The planned mounts, up to their order: the control mount and the rest. -/
theorem withControl_perm (out : List Value) :
    (withControl targets out).Perm ((targets.find? isServices).toList ++ out) := by
  unfold withControl
  cases targets.find? isServices with
  | none => exact List.Perm.refl _
  | some control =>
    have whole := List.take_append_drop (min (targets.findIdx isServices) out.length) out
    exact List.perm_middle.trans (List.Perm.cons control (List.Perm.of_eq whole))

theorem mem_wholeMounts {mount : Value} :
    mount ∈ wholeMounts sources targets prune ↔
      targets.find? isServices = some mount ∨ mount ∈ transferred sources ∨
        prune = false ∧ mount ∈ targetOnly sources targets := by
  rw [wholeMounts, List.mem_append, (withControl_perm _).mem_iff, List.mem_append,
    Option.mem_toList, or_assoc]
  refine or_congr_right (or_congr_right ?_)
  cases prune with
  | true => simp
  | false => simp

end Whole

end Rs2Runtime.Cli.Sync
