import Rs2Runtime.Data.Visibility
import Rs2Runtime.Json.Place
import Rs2Runtime.Services.FieldRules

/-!
Contract: merge patches as RFC 7386 defines them.

Owns:
- the function of the RFC, where a member that is not there is undefined and not null;
- what a merge leaves under each key, and at each path of keys;
- that merging is the function of the RFC, is idempotent and removes what a patch has null for.
-/

namespace Rs2Runtime.Services.FieldRules

open Text Data Json

/-! ## The function of the RFC -/

/-- A target that is no object is replaced by an empty one. -/
def targetObject : Option Value → Object
  | some (.obj fields) => fields
  | _ => []

mutual

/-- `MergePatch(Target, Patch)`; the target may be undefined. -/
def rfcMergePatch (target : Option Value) : (patch : Value) → Value
  | .obj patch => .obj (rfcMergeFields (targetObject target) patch)
  | .null => .null
  | .bool value => .bool value
  | .num value => .num value
  | .str value => .str value
  | .arr items => .arr items

/-- The loop over the name and value pairs of a patch. -/
def rfcMergeFields (target : Object) : (patch : List (Str × Value)) → Object
  | [] => target
  | (name, value) :: patch =>
    if value = .null then
      if (target.get? name).isSome then rfcMergeFields (target.erase name) patch
      else rfcMergeFields target patch
    else
      rfcMergeFields (target.insert name (rfcMergePatch (target.get? name) value)) patch

end

theorem erase_of_absent {target : Object} {name : Str} (absent : target.get? name = none) :
    target.erase name = target := by
  unfold OrderedMap.erase
  refine List.filter_eq_self.mpr fun entry isEntry => ?_
  have notKey := OrderedMap.get?_eq_none.mp absent
  rw [decide_eq_true_eq]
  rintro rfl
  exact notKey (List.mem_map_of_mem isEntry)

mutual

/-- A target that is null is treated as one that is undefined. -/
theorem mergePatch_eq_rfc : (patch : Value) → (target : Option Value) →
    mergePatch patch (target.getD .null) = rfcMergePatch target patch
  | .obj patch, target => by
      have started : (target.getD .null).asObject.getD [] = targetObject target := by
        cases target with
        | none => rfl
        | some target => cases target <;> rfl
      rw [mergePatch, rfcMergePatch, started, mergeFields_eq_rfc patch]
  | .null, _ => rfl
  | .bool _, _ => rfl
  | .num _, _ => rfl
  | .str _, _ => rfl
  | .arr _, _ => rfl

theorem mergeFields_eq_rfc : (patch : List (Str × Value)) → (target : Object) →
    mergeFields patch target = rfcMergeFields target patch
  | [], _ => rfl
  | (name, value) :: patch, target => by
      rw [mergeFields, rfcMergeFields]
      by_cases isNull : value = .null
      · rw [if_pos isNull, if_pos isNull]
        cases found : target.get? name with
        | none => rw [erase_of_absent found, mergeFields_eq_rfc patch, if_neg (by nofun)]
        | some existing => rw [mergeFields_eq_rfc patch, if_pos (by rfl)]
      · rw [if_neg isNull, if_neg isNull, mergeFields_eq_rfc patch, mergePatch_eq_rfc value]

end

/-! ## What a merge leaves -/

/-- What a merge leaves under a key. -/
def mergedMember (change current : Option Value) : Option Value :=
  match change with
  | none => current
  | some .null => none
  | some change => some (mergePatch change (current.getD .null))

theorem mergedMember_of_ne_null {change : Value} (present : change ≠ .null)
    (current : Option Value) :
    mergedMember (some change) current = some (mergePatch change (current.getD .null)) := by
  cases change <;> first | rfl | exact absurd rfl present

theorem get?_mergeFields {patch : List (Str × Value)} (distinct : (patch.map Prod.fst).Nodup)
    (target : Object) (key : Str) :
    OrderedMap.get? (mergeFields patch target) key =
      mergedMember (OrderedMap.get? patch key) (OrderedMap.get? target key) := by
  induction patch generalizing target with
  | nil => rfl
  | cons field patch ih =>
    obtain ⟨name, value⟩ := field
    rw [List.map_cons, List.nodup_cons] at distinct
    rw [mergeFields, ih distinct.2, OrderedMap.get?_cons]
    by_cases isKey : name = key
    · -- The rest of the patch says nothing about the key.
      have later : OrderedMap.get? patch key = none := by
        rw [← isKey]
        exact OrderedMap.get?_eq_none.mpr distinct.1
      rw [later, if_pos isKey, mergedMember, ← isKey]
      by_cases isNull : value = .null
      · rw [if_pos isNull, OrderedMap.get?_erase_self, isNull]
        rfl
      · rw [if_neg isNull, OrderedMap.get?_insert_self, mergedMember_of_ne_null isNull]
    · rw [if_neg isKey]
      by_cases isNull : value = .null
      · rw [if_pos isNull, OrderedMap.get?_erase_of_ne target (Ne.symm isKey)]
      · rw [if_neg isNull, OrderedMap.get?_insert_of_ne target _ (Ne.symm isKey)]

theorem ordered_erase {target : Object} (ordered : OrderedMap.Ordered target) (key : Str) :
    OrderedMap.Ordered (target.erase key) :=
  List.Pairwise.sublist (List.filter_sublist.map _) ordered

theorem ordered_mergeFields (patch : List (Str × Value)) {target : Object}
    (ordered : OrderedMap.Ordered target) : OrderedMap.Ordered (mergeFields patch target) := by
  induction patch generalizing target with
  | nil => exact ordered
  | cons field patch ih =>
    obtain ⟨name, value⟩ := field
    rw [mergeFields]
    refine ih ?_
    split
    · exact ordered_erase ordered name
    · exact ordered.insert name _

/-- The members of a target, in order where the target is well formed. -/
theorem ordered_members {target : Value} (wellFormed : target.WellFormed) :
    OrderedMap.Ordered (target.asObject.getD []) := by
  cases target with
  | obj fields => exact wellFormed.1
  | null | bool _ | num _ | str _ | arr _ => exact OrderedMap.ordered_nil

theorem wellFormed_member {target : Value} (wellFormed : target.WellFormed) (key : Str) :
    ((OrderedMap.get? (target.asObject.getD []) key).getD .null).WellFormed := by
  cases target with
  | obj fields =>
    cases found : OrderedMap.get? fields key with
    | none =>
      show ((OrderedMap.get? fields key).getD .null).WellFormed
      rw [found]
      trivial
    | some value =>
      show ((OrderedMap.get? fields key).getD .null).WellFormed
      rw [found]
      exact wellFormed.get? found
  | null | bool _ | num _ | str _ | arr _ => trivial

/-! ## Merging again -/

theorem mergePatch_idempotent : (patch target : Value) → patch.WellFormed → target.WellFormed →
    mergePatch patch (mergePatch patch target) = mergePatch patch target
  | .obj fields, target, patchWellFormed, wellFormed => by
      have ordered := ordered_mergeFields fields (ordered_members wellFormed)
      have distinct := patchWellFormed.1.nodup
      rw [mergePatch, mergePatch]
      refine congrArg Value.obj (OrderedMap.Ordered.ext (ordered_mergeFields fields ordered)
        ordered fun key => ?_)
      rw [Value.asObject, Option.getD_some, get?_mergeFields distinct, get?_mergeFields distinct]
      cases change : OrderedMap.get? fields key with
      | none => rfl
      | some value =>
        by_cases isNull : value = .null
        · rw [isNull]
          rfl
        · have smaller : sizeOf value < 1 + sizeOf fields := by
            have inside := List.sizeOf_lt_of_mem (OrderedMap.mem_of_get? change)
            rw [Prod.mk.sizeOf_spec] at inside
            omega
          rw [mergedMember_of_ne_null isNull, mergedMember_of_ne_null isNull, Option.getD_some,
            mergePatch_idempotent value _ (patchWellFormed.get? change)
              (wellFormed_member wellFormed key)]
  | .null, _, _, _ => rfl
  | .bool _, _, _, _ => rfl
  | .num _, _, _, _ => rfl
  | .str _, _, _, _ => rfl
  | .arr _, _, _, _ => rfl
termination_by patch => sizeOf patch

/-! ## Members that are taken away -/

/-- The value at a path of keys. -/
def memberAt (value : Value) (path : List Str) : Option Value :=
  value.at? (path.map .key)

theorem memberAt_mergePatch {path : List Str} (nonempty : path ≠ []) {patch : Value}
    (patchWellFormed : patch.WellFormed) (target : Value)
    (removed : memberAt patch path = some .null) : memberAt (mergePatch patch target) path = none := by
  induction path generalizing patch target with
  | nil => exact absurd rfl nonempty
  | cons key path ih =>
    cases patch with
    | obj fields =>
      obtain ⟨change, found, inside⟩ := Option.bind_eq_some_iff.mp removed
      have left := get?_mergeFields patchWellFormed.1.nodup (target.asObject.getD []) key
      rw [show OrderedMap.get? fields key = some change from found] at left
      have step : memberAt (mergePatch (.obj fields) target) (key :: path) =
          (mergedMember (some change)
            (OrderedMap.get? (target.asObject.getD []) key)).bind fun next => memberAt next path := by
        rw [← left]
        rfl
      rw [step]
      cases path with
      | nil =>
        obtain rfl : change = .null := Option.some.inj inside
        rfl
      | cons next path =>
        have present : change ≠ .null := by
          rintro rfl
          cases inside
        rw [mergedMember_of_ne_null present, Option.bind_some]
        exact ih (List.cons_ne_nil _ _) (patchWellFormed.get? found) _ inside
    | null | bool _ | num _ | str _ | arr _ => cases removed

/-- A merge is the function of the RFC, merging again changes nothing, and no member at a path where
the patch has null is left. -/
theorem merge_patch_is_rfc (target patch : Value) (targetWellFormed : target.WellFormed)
    (patchWellFormed : patch.WellFormed) :
    mergePatch patch target = rfcMergePatch (some target) patch ∧
      mergePatch patch (mergePatch patch target) = mergePatch patch target ∧
      ∀ path, path ≠ [] → memberAt patch path = some .null →
        memberAt (mergePatch patch target) path = none :=
  ⟨mergePatch_eq_rfc patch (some target),
    mergePatch_idempotent patch target patchWellFormed targetWellFormed,
    fun _ nonempty => memberAt_mergePatch nonempty patchWellFormed target⟩

/-- A nested object that a patch creates is created without its nulls. -/
theorem created_object_has_no_nulls :
    memberAt (mergePatch (.obj [("a", .obj [("b", .null)])]) .null) ["a", "b"] = none :=
  (merge_patch_is_rfc .null (.obj [("a", .obj [("b", .null)])]) trivial
    ⟨List.pairwise_singleton _ _, ⟨List.pairwise_singleton _ _, trivial, trivial⟩, trivial⟩).2.2 _
    (by nofun) rfl

end Rs2Runtime.Services.FieldRules
