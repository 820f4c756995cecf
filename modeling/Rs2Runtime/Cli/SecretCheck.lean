import Rs2Runtime.Cli.SyncPlan
import Rs2Runtime.Runtime.SecretRoundTrip

/-!
Contract: what the check for missing secrets says about the server's restoring of a plan.

Owns:
- values for which the walk of the check and the restoring of the server agree;
- that they agree for every plan that is built from two redacted configurations;
- that secrets in a plan that is restored are the target's own.
-/

namespace Rs2Runtime.Cli.Sync

open Text Data Json
open Services (redactSecrets restoreSecrets restoreAt restoreFields restoreItems hasMask
  fieldsHaveMask itemsHaveMask maskLeaves maskText modify)
open Runtime.SecretRoundTrip

/-! ## Agreement of the two walks -/

/-- The walk of the check over a masked value finds nothing exactly if restoring from the stored
one leaves no mark. -/
def Predicted (planned masked stored : Value) : Prop :=
  ∀ pointer, walkMasks masked pointer planned = [] ↔ hasMask (restoreAt planned stored) = false

variable {value : Value} {items : List Value}

section Agreement

variable {planned masked stored : Value}

theorem unmasked_inside {next : Value} {step : Place} (unmasked : hasMask value = false)
    (inside : value.inside step = some next) : hasMask next = false := by
  rw [Bool.eq_false_iff]
  intro marked
  rw [hasMask_of_inside inside marked] at unmasked
  cases unmasked

variable {fields : List (Str × Value)}

theorem walkFields_eq_nil (current : Value) (pointer : Str) :
    walkFields current pointer fields = [] ↔ ∀ field ∈ fields,
      walkMasks ((current.get? field.1).getD .null) (pointer ++ '/' :: field.1) field.2 = [] := by
  induction fields with
  | nil => exact iff_of_true rfl (List.forall_mem_nil _)
  | cons field fields ih =>
    rw [List.forall_mem_cons, ← ih]
    exact List.append_eq_nil_iff

theorem walkItems_eq_nil (current : Value) (pointer : Str) (first : Nat) :
    walkItems current pointer first items = [] ↔ ∀ position item, items[position]? = some item →
      walkMasks ((current.inside (.index (first + position))).getD .null)
        (pointer ++ '/' :: natStr (first + position)) item = [] := by
  induction items generalizing first with
  | nil => exact iff_of_true rfl nofun
  | cons item items ih =>
    have parts : walkItems current pointer first (item :: items) = [] ↔
        walkMasks ((current.inside (.index first)).getD .null) (pointer ++ '/' :: natStr first)
          item = [] ∧ walkItems current pointer (first + 1) items = [] :=
      List.append_eq_nil_iff
    rw [parts, ih]
    constructor
    · rintro ⟨here, later⟩ position other found
      cases position with
      | zero =>
        cases found
        exact here
      | succ position =>
        have walked := later position other found
        rw [Nat.add_right_comm] at walked
        exact walked
    · intro all
      refine ⟨all 0 item rfl, fun position other found => ?_⟩
      have walked := all (position + 1) other found
      rw [Nat.add_right_comm]
      exact walked

theorem fieldsHaveMask_restoreFields (current : Value) :
    fieldsHaveMask (restoreFields fields current) = false ↔ ∀ field ∈ fields,
      hasMask (restoreAt field.2 ((current.get? field.1).getD .null)) = false := by
  induction fields with
  | nil => exact iff_of_true rfl (List.forall_mem_nil _)
  | cons field fields ih =>
    rw [List.forall_mem_cons, ← ih]
    exact Bool.or_eq_false_iff

theorem itemsHaveMask_restoreItems (current : Value) (first : Nat) :
    itemsHaveMask (restoreItems items current first) = false ↔
      ∀ position item, items[position]? = some item →
        hasMask (restoreAt item ((current.inside (.index (first + position))).getD .null)) =
          false := by
  induction items generalizing first with
  | nil => exact iff_of_true rfl nofun
  | cons item items ih =>
    have parts : itemsHaveMask (restoreItems (item :: items) current first) = false ↔
        hasMask (restoreAt item ((current.inside (.index first)).getD .null)) = false ∧
          itemsHaveMask (restoreItems items current (first + 1)) = false :=
      Bool.or_eq_false_iff
    rw [parts, ih]
    constructor
    · rintro ⟨here, later⟩ position other found
      cases position with
      | zero =>
        cases found
        exact here
      | succ position =>
        have restored := later position other found
        rw [Nat.add_right_comm] at restored
        exact restored
    · intro all
      refine ⟨all 0 item rfl, fun position other found => ?_⟩
      have restored := all (position + 1) other found
      rw [Nat.add_right_comm]
      exact restored

theorem predicted_obj (members : ∀ field ∈ fields,
      Predicted field.2 ((masked.get? field.1).getD .null) ((stored.get? field.1).getD .null)) :
    Predicted (.obj fields) masked stored := by
  intro pointer
  show walkFields masked pointer fields = [] ↔ fieldsHaveMask (restoreFields fields stored) = false
  rw [walkFields_eq_nil, fieldsHaveMask_restoreFields]
  apply forall₂_congr
  intro field member
  exact members field member _

theorem predicted_arr (members : ∀ position item, items[position]? = some item →
      Predicted item ((masked.inside (.index position)).getD .null)
        ((stored.inside (.index position)).getD .null)) :
    Predicted (.arr items) masked stored := by
  intro pointer
  show walkItems masked pointer 0 items = [] ↔ itemsHaveMask (restoreItems items stored 0) = false
  rw [walkItems_eq_nil, itemsHaveMask_restoreItems]
  apply forall₃_congr
  intro position item found
  rw [Nat.zero_add]
  exact members position item found _

/-- A text: the check asks for a text that is not empty, and a masked text never is. -/
theorem predicted_str {text : Str} (unmasked : hasMask stored = false)
    (seen : masked.asStr = stored.asStr.map fun _ => secretMask) :
    Predicted (.str text) masked stored := by
  intro pointer
  unfold walkMasks restoreAt
  by_cases marked : text = secretMask
  · have sent : text = Services.secretMask := marked
    rw [if_pos marked, if_pos sent, seen]
    cases stored with
    | str kept => exact iff_of_true rfl unmasked
    | _ =>
      have left : hasMask (.str secretMask) = true := rfl
      refine iff_of_false (List.cons_ne_nil _ _) ?_
      rw [marked]
      exact ne_true_of_eq_false.mt (not_not.mpr left)
  · have unsent : text ≠ Services.secretMask := marked
    rw [if_neg marked, if_neg unsent]
    exact iff_of_true rfl (decide_eq_false unsent)

/-- Below a value all of whose texts are masked, the two walks agree. -/
theorem predicted_maskLeaves (planned stored : Value) (unmasked : hasMask stored = false) :
    Predicted planned (maskLeaves stored) stored := by
  have inner (step : Place) : hasMask ((stored.inside step).getD .null) = false := by
    cases found : stored.inside step with
    | none => rfl
    | some next => exact unmasked_inside unmasked found
  have below (step : Place) : ((maskLeaves stored).inside step).getD .null =
      maskLeaves ((stored.inside step).getD .null) := by
    rw [inside_maskLeaves]
    cases stored.inside step <;> rfl
  cases planned with
  | str text =>
    apply predicted_str unmasked
    cases stored <;> rfl
  | obj fields =>
    apply predicted_obj
    intro field member
    have smaller : sizeOf field.2 < 1 + sizeOf fields := Value.sizeOf_lt_of_field member
    have found := below (.key field.1)
    have agree := predicted_maskLeaves field.2 _ (inner (.key field.1))
    rw [← found] at agree
    exact agree
  | arr items =>
    apply predicted_arr
    intro position item found
    have member := List.mem_of_getElem? found
    have agree := predicted_maskLeaves item _ (inner (.index position))
    rw [← below (.index position)] at agree
    exact agree
  | _ => exact fun pointer => iff_of_true rfl rfl
termination_by sizeOf planned

/-- In a value without a mark there is nothing to find or to restore. -/
theorem predicted_of_unmasked : ∀ planned masked stored : Value, hasMask planned = false →
    Predicted planned masked stored
  | .str text, masked, stored, unmasked => by
      intro pointer
      have unmarked : text ≠ secretMask := of_decide_eq_false unmasked
      rw [restore_unmasked _ _ unmasked, walkMasks, if_neg unmarked]
      exact iff_of_true rfl unmasked
  | .obj fields, masked, stored, unmasked => by
      apply predicted_obj
      intro field member
      have smaller : sizeOf field.2 < 1 + sizeOf fields := Value.sizeOf_lt_of_field member
      exact predicted_of_unmasked field.2 _ _ (hasMask_of_mem_fields unmasked member)
  | .arr items, masked, stored, unmasked => by
      apply predicted_arr
      intro position item found
      have member := List.mem_of_getElem? found
      exact predicted_of_unmasked item _ _ (hasMask_of_mem_items unmasked member)
  | .null, _, _, _ | .bool _, _, _, _ | .num _, _, _, _ => fun _ => iff_of_true rfl rfl

end Agreement

/-! ## Plans -/

section Plans

variable {source target : Value} {scope : Scope} {plan : Plan}

theorem mem_insert {fields : Object} {key : Str} {field : Str × Value}
    (member : field ∈ OrderedMap.insert fields key value) :
    field = (key, value) ∨ field ∈ fields := by
  induction fields with
  | nil => exact .inl (List.mem_singleton.mp member)
  | cons first rest ih =>
    unfold OrderedMap.insert at member
    split at member
    · rcases List.mem_cons.mp member with here | later
      · exact .inl here
      · exact .inr (List.mem_cons_of_mem _ later)
    · split at member
      · exact List.mem_cons.mp member
      · rcases List.mem_cons.mp member with here | later
        · exact .inr (here ▸ List.mem_cons_self)
        · rcases ih later with inserted | kept
          · exact .inl inserted
          · exact .inr (List.mem_cons_of_mem _ kept)

variable {mount : Value}

theorem mem_placeMounts {sources out after : List Value} {wanted : List Str}
    (placed : placeMounts sources wanted out = .ok after) (member : mount ∈ after) :
    mount ∈ sources ∨ mount ∈ out := by
  induction wanted generalizing out with
  | nil =>
    cases placed
    exact .inr member
  | cons path rest ih =>
    obtain ⟨between, first, later⟩ := Outcome.bind_eq_ok.mp placed
    rcases ih later with inSources | inBetween
    · exact .inl inSources
    · obtain ⟨found, isFound, -, isBetween, -⟩ := placeMount_eq_ok first
      rw [isBetween] at inBetween
      rcases Keyed.mem_of_mem_upsert inBetween with same | kept
      · rw [same]
        exact .inl (List.mem_of_find?_eq_some isFound)
      · exact .inr kept

/-- Planned mounts are mounts of the source or of the target. -/
theorem mem_plannedMounts {mounts : List Value}
    (planned : plannedMounts source target scope = .ok mounts) (member : mount ∈ mounts) :
    mount ∈ mountsOf source ∨ mount ∈ mountsOf target := by
  unfold plannedMounts at planned
  split at planned
  · cases planned
    rcases mem_wholeMounts.mp member with control | transferred | ⟨-, kept⟩
    · exact .inr (List.mem_of_find?_eq_some control)
    · exact .inl (mem_transferred.mp transferred).1
    · exact .inr (mem_targetOnly.mp kept).1
  · exact mem_placeMounts planned member

/-- Redaction leaves the mounts as they are. -/
theorem mountsOf_redactSecrets (config : Value) : mountsOf (redactSecrets config) = mountsOf config := by
  have member : (redactSecrets config).get? "mounts" = config.get? "mounts" := by
    unfold redactSecrets
    rw [get?_modify, get?_modify]
    cases config.get? "mounts" <;> rfl
  rw [mountsOf, member]
  rfl

theorem hasMask_of_mem_mountsOf {config : Value} (unmasked : hasMask config = false)
    (member : mount ∈ mountsOf config) : hasMask mount = false := by
  unfold mountsOf at member
  cases found : config.get? "mounts" with
  | none =>
    rw [found] at member
    cases member
  | some value =>
    rw [found] at member
    have clean : hasMask value = false := @unmasked_inside config value (.key "mounts") unmasked found
    cases value with
    | arr items => exact hasMask_of_mem_items clean member
    | _ => cases member

theorem hasMask_arr (clean : ∀ item ∈ items, hasMask item = false) :
    hasMask (.arr items) = false := by
  show itemsHaveMask items = false
  induction items with
  | nil => rfl
  | cons item items ih =>
    obtain ⟨here, later⟩ := List.forall_mem_cons.mp clean
    exact Bool.or_eq_false_iff.mpr ⟨here, ih later⟩

/-- What the redacted target has at a member, and what the stored one has. -/
theorem get?_redactSecrets (config : Value) (key : Str) :
    (redactSecrets config).get? key = (config.get? key).map (redactMember key) := by
  cases config with
  | obj fields =>
    rw [redactSecrets_obj]
    exact OrderedMap.get?_map_value fields redactMember key
  | _ => rfl

theorem getD_redactSecrets (config : Value) (key : Str) :
    ((redactSecrets config).get? key).getD .null =
      redactMember key ((config.get? key).getD .null) := by
  rw [get?_redactSecrets]
  cases config.get? key with
  | none =>
    unfold redactMember
    split
    · rfl
    · split <;> rfl
  | some value => rfl

/-- A planned member: the redaction of a member without marks. -/
theorem predicted_redactMember (key : Str) {stored : Value} (clean : hasMask value = false)
    (unmasked : hasMask stored = false) :
    Predicted (redactMember key value) (redactMember key stored) stored := by
  unfold redactMember
  split
  · exact predicted_maskLeaves _ _ unmasked
  · split
    · cases value with
      | obj fields =>
        apply predicted_obj
        intro field member
        obtain ⟨inner, isInner, rfl⟩ := List.mem_map.mp member
        have cleanInner := hasMask_of_mem_fields clean isInner
        dsimp only
        by_cases secret : inner.1 = "jwtSecret".toList
        · rw [if_pos secret, get?_modify]
          have cleanStored : hasMask ((stored.get? inner.1).getD .null) = false := by
            cases found : stored.get? inner.1 with
            | none => rfl
            | some next => exact @unmasked_inside stored next (.key inner.1) unmasked found
          cases held : inner.2 with
          | str text =>
            apply predicted_str cleanStored
            cases stored.get? inner.1 with
            | none => rfl
            | some next =>
              rw [Option.map_some, if_pos secret]
              cases next <;> rfl
          | _ =>
            rw [held] at cleanInner
            exact predicted_of_unmasked _ _ _ cleanInner
        · rw [if_neg secret]
          exact predicted_of_unmasked _ _ _ cleanInner
      | _ => exact predicted_of_unmasked _ _ _ clean
    · exact predicted_of_unmasked _ _ _ clean

/-- The members of the configuration that a plan starts from are redacted members without marks. -/
theorem mem_base {fields : Object} (unmaskedSource : hasMask source = false)
    (unmaskedTarget : hasMask target = false)
    (base : (baseOf (redactSecrets source) (redactSecrets target) scope).asObject = some fields)
    {field : Str × Value} (member : field ∈ fields) :
    ∃ value, hasMask value = false ∧ field.2 = redactMember field.1 value := by
  have redacted {config : Value} (unmasked : hasMask config = false)
      (known : (redactSecrets config).asObject = some fields) :
      ∃ value, hasMask value = false ∧ field.2 = redactMember field.1 value := by
    cases config with
    | obj members =>
      rw [redactSecrets_obj] at known
      cases known
      obtain ⟨inner, isInner, rfl⟩ := List.mem_map.mp member
      exact ⟨inner.2, hasMask_of_mem_fields unmasked isInner, rfl⟩
    | _ => cases known
  unfold baseOf at base
  split at base
  · exact redacted unmaskedSource base
  · exact redacted unmaskedTarget base

/-- The two walks agree for a planned configuration. -/
theorem predicted_plan (unmaskedSource : hasMask source = false)
    (unmaskedTarget : hasMask target = false)
    (planned : planConfig (redactSecrets source) (redactSecrets target) scope = .ok plan) :
    Predicted plan.config (redactSecrets target) target := by
  obtain ⟨mounts, fields, known, base, rfl⟩ := planConfig_eq_ok.mp planned
  have cleanMounts : hasMask (.arr mounts) = false := by
    apply hasMask_arr
    intro mount member
    have origin := mem_plannedMounts known member
    rw [mountsOf_redactSecrets, mountsOf_redactSecrets] at origin
    rcases origin with inSource | inTarget
    · exact hasMask_of_mem_mountsOf unmaskedSource inSource
    · exact hasMask_of_mem_mountsOf unmaskedTarget inTarget
  apply predicted_obj
  intro field member
  rcases mem_insert member with rfl | kept
  · exact predicted_of_unmasked _ _ _ cleanMounts
  · obtain ⟨value, clean, isField⟩ := mem_base unmaskedSource unmaskedTarget base kept
    rw [isField, getD_redactSecrets]
    apply predicted_redactMember field.1 clean
    cases found : target.get? field.1 with
    | none => rfl
    | some next => exact @unmasked_inside target next (.key field.1) unmaskedTarget found

/-- In the places of secrets, a plan has what one of the redacted configurations has. -/
theorem at?_plan {place : List Place} (secret : Secret place)
    (planned : planConfig (redactSecrets source) (redactSecrets target) scope = .ok plan) :
    plan.config.at? place = (redactSecrets source).at? place ∨
      plan.config.at? place = (redactSecrets target).at? place := by
  obtain ⟨mounts, fields, -, base, rfl⟩ := planConfig_eq_ok.mp planned
  have same : (Value.obj (OrderedMap.insert fields "mounts" (.arr mounts))).at? place =
      (Value.obj fields).at? place := by
    cases secret with
    | jwtSecret =>
      rw [Value.at?, Value.at?]
      have member := OrderedMap.get?_insert_of_ne fields (Value.arr mounts)
        (show ("auth" : Str) ≠ "mounts" by decide)
      exact congrArg (Option.bind · _) member
    | named rest =>
      rw [Value.at?, Value.at?]
      have member := OrderedMap.get?_insert_of_ne fields (Value.arr mounts)
        (show ("secrets" : Str) ≠ "mounts" by decide)
      exact congrArg (Option.bind · _) member
  have isBase := obj_of_asObject base
  rw [planOf, same, ← isBase]
  unfold baseOf
  split
  · exact .inl rfl
  · exact .inr rfl

/-- Secrets of a restored plan are the target's own. -/
theorem own_of_restored {stored : Value}
    (planned : planConfig (redactSecrets source) (redactSecrets target) scope = .ok plan)
    (clean : hasMask stored = false) (restored : stored = restoreAt plan.config target)
    {place : List Place} {text : Str} (secret : Secret place)
    (found : stored.at? place = some (.str text)) : target.at? place = some (.str text) := by
  have marked := found
  rw [restored, at?_restoreAt] at found
  obtain ⟨written, there, back⟩ := Option.map_eq_some_iff.mp found
  rcases restoreAt_eq_str back with ⟨-, own | isMask⟩ | ⟨same, unmarked⟩
  · unfold Value.atD at own
    cases kept : target.at? place with
    | none =>
      rw [kept] at own
      cases own
    | some value =>
      rw [kept] at own
      exact congrArg some own
  · rw [isMask] at marked
    rw [hasMask_of_at? marked] at clean
    cases clean
  · rw [same] at there
    rcases at?_plan secret planned with fromSource | fromTarget
    · exact absurd (stored_of_redacted secret (fromSource.symm.trans there)).1 unmarked
    · exact absurd (stored_of_redacted secret (fromTarget.symm.trans there)).1 unmarked

end Plans

/-- **The check for missing secrets predicts the server**: it finds none exactly if restoring the
plan succeeds, and what is stored then has the target's own secrets. -/
theorem secret_check_predicts_restore (source target : Value) (scope : Scope) (plan : Plan)
    (unmaskedSource : hasMask source = false) (unmaskedTarget : hasMask target = false)
    (planned : planConfig (redactSecrets source) (redactSecrets target) scope = .ok plan) :
    (missingSecrets plan.config (redactSecrets target) = [] ↔
      ∃ stored, restoreSecrets plan.config target = .ok stored) ∧
    ∀ stored, restoreSecrets plan.config target = .ok stored →
      ∀ place text, Secret place → stored.at? place = some (.str text) →
        target.at? place = some (.str text) := by
  have clean {stored : Value} (restored : restoreSecrets plan.config target = .ok stored) :
      hasMask stored = false ∧ stored = restoreAt plan.config target := by
    have isRestored := restoreSecrets_eq_ok restored
    refine ⟨?_, isRestored⟩
    rw [Bool.eq_false_iff]
    intro marked
    rw [isRestored] at marked
    unfold restoreSecrets at restored
    dsimp only at restored
    rw [if_pos marked] at restored
    cases restored
  constructor
  · have agree := predicted_plan unmaskedSource unmaskedTarget planned []
    rw [missingSecrets, agree]
    constructor
    · intro unmarked
      exact ⟨_, restoreSecrets_of_unmasked unmarked⟩
    · rintro ⟨stored, restored⟩
      obtain ⟨unmarked, isRestored⟩ := clean restored
      rw [← isRestored]
      exact unmarked
  · intro stored restored place text secret found
    obtain ⟨unmarked, isRestored⟩ := clean restored
    exact own_of_restored planned unmarked isRestored secret found

/-! Two nodes with secrets of their own. -/

def withSecret (secret : Str) : Value :=
  .object [("auth", .object [("jwtSecret", .str secret)]), ("mounts", .arr [])]

theorem own_secret_survives_the_plan :
    ∃ plan stored, planConfig (redactSecrets (withSecret "a")) (redactSecrets (withSecret "b"))
        ⟨none, false⟩ = .ok plan ∧
      restoreSecrets plan.config (withSecret "b") = .ok stored ∧
      stored.at? [.key "auth", .key "jwtSecret"] = some (.str "b") := by
  refine ⟨_, _, rfl, rfl, ?_⟩
  have own := (secret_check_predicts_restore (withSecret "a") (withSecret "b") ⟨none, false⟩ _
    (by decide +kernel) (by decide +kernel) rfl).2 _ rfl [.key "auth", .key "jwtSecret"] "b"
    .jwtSecret
  have here : (withSecret "b").at? [.key "auth", .key "jwtSecret"] = some (.str "b") := by
    decide +kernel
  exact (own (by decide +kernel)).symm ▸ here

end Rs2Runtime.Cli.Sync
