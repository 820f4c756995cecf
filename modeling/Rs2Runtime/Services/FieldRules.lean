import Rs2Runtime.Wrapper.Access

/-!
Contract: top-level field rules of a dataset schema, and merge patches.

Owns:
- the rules a schema states with `x-rs-read` and `x-rs-write`;
- redaction of fields a caller may not read;
- enforcement of the rules on the record a write would produce;
- RFC 7386 merge patches;
- what each of them does to one field.
-/

namespace Rs2Runtime.Services.FieldRules

open Text Data Json

/-- The role specifications of one top-level field. -/
structure FieldRule where
  name : Str
  read : Option Str
  write : Option Str
  deriving DecidableEq, Repr

/-- Whether a caller satisfies an optional role specification. -/
def allows (spec : Option Str) (msg : Message) : Bool :=
  match spec with
  | none => true
  | some spec => Wrapper.satisfiesRoleSpec spec msg

namespace FieldRule

def readable (rule : FieldRule) (msg : Message) : Bool :=
  allows rule.read msg

def writable (rule : FieldRule) (msg : Message) : Bool :=
  allows rule.write msg

end FieldRule

/-- The rule of one property definition, where it states one. -/
def ruleOf (property : Str × Value) : Option FieldRule :=
  let read := (property.2.get? "x-rs-read").bind Value.asStr
  let write := (property.2.get? "x-rs-write").bind Value.asStr
  if read.isSome || write.isSome then some ⟨property.1, read, write⟩ else none

/-- The field rules of a schema. -/
def fieldRules (schema : Value) : List FieldRule :=
  match (schema.get? "properties").bind Value.asObject with
  | none => []
  | some properties => properties.filterMap ruleOf

/-! ## Redaction -/

/-- Drop the fields whose rule the caller does not satisfy. -/
def redactRules (msg : Message) : List FieldRule → Object → Object
  | [], fields => fields
  | rule :: rules, fields =>
    redactRules msg rules (if rule.readable msg then fields else fields.erase rule.name)

def redactFields (value schema : Value) (msg : Message) : Value :=
  match value with
  | .obj fields => .obj (redactRules msg (fieldRules schema) fields)
  | other => other

/-! ## Enforcement -/

def notWritable (name : Str) : RsError :=
  .forbidden (("field '" : Str) ++ name ++ ("' is not writable by this principal" : Str))

/-- Give a field the value it has in the stored record. -/
def restoreField (fields : Object) (stored : Value) (name : Str) : Object :=
  match stored.get? name with
  | some value => fields.insert name value
  | none => fields.erase name

/-- Enforce rules one after another: an unreadable field is restored, a change to a
readable field that is not writable is refused. -/
def enforceRules (stored : Value) (msg : Message) :
    List FieldRule → Object → Except RsError Object
  | [], fields => .ok fields
  | rule :: rules, fields =>
    if !rule.readable msg then
      enforceRules stored msg rules (restoreField fields stored rule.name)
    else if !rule.writable msg ∧ fields.get? rule.name ≠ stored.get? rule.name then
      .error (notWritable rule.name)
    else
      enforceRules stored msg rules fields

/-- Enforce the write rules on the record a write would produce. -/
def enforceWriteRules (final stored schema : Value) (msg : Message) : Except RsError Value :=
  match final with
  | .obj fields => (enforceRules stored msg (fieldRules schema) fields).map Value.obj
  | other => .ok other

/-! ## Merge patches -/

mutual

/-- RFC 7386 merge patch: the target after the patch. -/
def mergePatch : (patch target : Value) → Value
  | .obj patch, target => .obj (mergeFields patch (target.asObject.getD []))
  | .null, _ => .null
  | .bool value, _ => .bool value
  | .num value, _ => .num value
  | .str value, _ => .str value
  | .arr items, _ => .arr items

/-- Merge the members of a patch into an object, in order. -/
def mergeFields : (patch : List (Str × Value)) → (target : Object) → Object
  | [], target => target
  | (key, value) :: patch, target =>
    mergeFields patch
      (if value = .null then target.erase key
       else target.insert key (mergePatch value ((target.get? key).getD .null)))

end

theorem isObject_mergePatch (patch target : Value) :
    (mergePatch patch target).isObject = patch.isObject := by
  cases patch <;> rfl

/-! ## Protected fields -/

/-- A field the caller may not read. -/
def Hidden (schema : Value) (msg : Message) (name : Str) : Prop :=
  ∃ rule ∈ fieldRules schema, rule.name = name ∧ rule.readable msg = false

/-- A field the caller may not read, or not write. -/
def Protected (schema : Value) (msg : Message) (name : Str) : Prop :=
  ∃ rule ∈ fieldRules schema,
    rule.name = name ∧ (rule.readable msg = false ∨ rule.writable msg = false)

instance (schema : Value) (msg : Message) (name : Str) : Decidable (Hidden schema msg name) :=
  inferInstanceAs (Decidable (∃ rule ∈ fieldRules schema, _))

instance (schema : Value) (msg : Message) (name : Str) : Decidable (Protected schema msg name) :=
  inferInstanceAs (Decidable (∃ rule ∈ fieldRules schema, _))

@[simp]
theorem get?_restoreField (fields : Object) (stored : Value) (name key : Str) :
    (restoreField fields stored name).get? key =
      if key = name then stored.get? name else fields.get? key := by
  unfold restoreField
  by_cases same : key = name
  · subst same
    cases stored.get? key <;> simp
  · cases stored.get? name <;> simp [same]

/-- A field that already has its stored value keeps it through enforcement. -/
theorem get?_enforceRules_of_stored {stored : Value} {msg : Message} {rules : List FieldRule}
    {fields result : Object} {name : Str}
    (enforced : enforceRules stored msg rules fields = .ok result)
    (same : fields.get? name = stored.get? name) : result.get? name = stored.get? name := by
  induction rules generalizing fields with
  | nil =>
    cases enforced
    exact same
  | cons rule rules ih =>
    unfold enforceRules at enforced
    split at enforced
    · refine ih enforced ?_
      rw [get?_restoreField]
      split
      next eq => rw [eq]
      next => exact same
    · split at enforced
      · cases enforced
      · exact ih enforced same

/-- Enforcement gives every protected field its stored value. -/
theorem get?_enforceRules_of_protected {stored : Value} {msg : Message} {rules : List FieldRule}
    {fields result : Object} (enforced : enforceRules stored msg rules fields = .ok result)
    {rule : FieldRule} (member : rule ∈ rules)
    (held : rule.readable msg = false ∨ rule.writable msg = false) :
    result.get? rule.name = stored.get? rule.name := by
  induction rules generalizing fields with
  | nil => cases member
  | cons first rules ih =>
    rcases List.mem_cons.mp member with rfl | later
    · unfold enforceRules at enforced
      split at enforced
      · exact get?_enforceRules_of_stored enforced (by simp)
      next readable =>
        have unwritable : rule.writable msg = false :=
          held.resolve_left (by simpa using readable)
        split at enforced
        · cases enforced
        next unchanged =>
          simp only [unwritable, Bool.not_false, true_and, ne_eq, not_not] at unchanged
          exact get?_enforceRules_of_stored enforced unchanged
    · unfold enforceRules at enforced
      split at enforced
      · exact ih enforced later
      · split at enforced
        · cases enforced
        · exact ih enforced later

/-- An object that passes enforcement keeps the stored value of every protected field. -/
theorem get?_enforceWriteRules_of_protected {final stored schema result : Value} {msg : Message}
    (isObject : final.isObject = true)
    (enforced : enforceWriteRules final stored schema msg = .ok result) {name : Str}
    (held : Protected schema msg name) : result.get? name = stored.get? name := by
  obtain ⟨fields, rfl⟩ : ∃ fields, final = .obj fields := by
    cases final <;> simp_all [Value.isObject, Value.asObject]
  obtain ⟨rule, member, rfl, reason⟩ := held
  cases ran : enforceRules stored msg (fieldRules schema) fields with
  | error e => simp [enforceWriteRules, ran, Except.map] at enforced
  | ok kept =>
    simp only [enforceWriteRules, ran, Except.map, Except.ok.injEq] at enforced
    rw [← enforced, Value.get?_obj]
    exact get?_enforceRules_of_protected ran member reason

/-- Enforcement passes every other value through. -/
theorem enforceWriteRules_of_not_object {final : Value} (notObject : final.isObject = false)
    (stored schema : Value) (msg : Message) :
    enforceWriteRules final stored schema msg = .ok final := by
  cases final <;> first | rfl | simp [Value.isObject, Value.asObject] at notObject

theorem get?_of_not_object {value : Value} (notObject : value.isObject = false) (name : Str) :
    value.get? name = none := by
  cases value <;> first | rfl | simp [Value.isObject, Value.asObject] at notObject

end Rs2Runtime.Services.FieldRules
