import Rs2Runtime.Json.Value

/-!
Contract: members of well-formed JSON values.

Owns: well-formedness of objects as that of everything in them, and that members are smaller than
what they are in.
-/

namespace Rs2Runtime.Json.Value

open Text Data

/-- A member of an object is smaller than the object. -/
theorem sizeOf_lt_of_field {fields : List (Str × Value)} {field : Str × Value}
    (member : field ∈ fields) : sizeOf field.2 < 1 + sizeOf fields := by
  have inside := List.sizeOf_lt_of_mem member
  obtain ⟨key, value⟩ := field
  rw [Prod.mk.sizeOf_spec] at inside
  dsimp only
  omega

theorem wellFormedFields_iff {fields : List (Str × Value)} :
    WellFormedFields fields ↔ ∀ field ∈ fields, field.2.WellFormed := by
  induction fields with
  | nil => exact ⟨fun _ => nofun, fun _ => trivial⟩
  | cons field fields ih =>
    show field.2.WellFormed ∧ WellFormedFields fields ↔ _
    rw [ih, List.forall_mem_cons]

theorem wellFormedFields_insert {fields : Object} {key : Str} {value : Value}
    (wellFormed : WellFormedFields fields) (inserted : value.WellFormed) :
    WellFormedFields (OrderedMap.insert fields key value) := by
  induction fields with
  | nil => exact ⟨inserted, trivial⟩
  | cons entry rest ih =>
    obtain ⟨other, existing⟩ := entry
    unfold OrderedMap.insert
    split
    · exact ⟨inserted, wellFormed.2⟩
    · split
      · exact ⟨inserted, wellFormed⟩
      · exact ⟨wellFormed.1, ih wellFormed.2⟩

/-- A member of a well-formed object is well formed. -/
theorem WellFormed.get? {fields : Object} (wellFormed : (Value.obj fields).WellFormed) {key : Str}
    {value : Value} (found : OrderedMap.get? fields key = some value) : value.WellFormed :=
  wellFormedFields_iff.mp wellFormed.2 (key, value) (OrderedMap.mem_of_get? found)

end Rs2Runtime.Json.Value
