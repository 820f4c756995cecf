import Rs2Runtime.Services.Data

/-!
Contract: what a successful write leaves of the fields its caller may not touch.

Owns:
- the field frame between two stores, for one caller;
- the form of every successful write: one record, one schema, or a created record;
- the exact condition under which a successful write keeps the frame.
-/

namespace Rs2Runtime.Services.DataService

open Text Data Data.Outcome Json
open Adapters Adapters.MemData Services.FieldRules

/-- A field of a stored record, if the record exists and has it. -/
def field? (store : Store) (dataset key name : Str) : Option Value :=
  (record? store dataset key).bind fun record => record.get? name

/-- Every field the caller may not read or not write is the same in both stores. -/
def KeepsProtected (before after : Store) (msg : Message) : Prop :=
  ∀ dataset key name schema, getSchema before dataset = some schema →
    Protected schema msg name → field? after dataset key name = field? before dataset key name

/-- The body of the request is a JSON object. -/
def bodyIsObject (host : DataHost) (msg : Message) : Bool :=
  match bodyJson host msg [] with
  | .ok value => value.isObject
  | .error _ => false

/-- The record a request addresses by key has no protected field. -/
def NothingToProtect (store : Store) (msg : Message) : Prop :=
  ∀ dataset key name schema, msg.url.serviceSegments = [dataset, key] →
    key ≠ schemaResource → getSchema store dataset = some schema →
      Protected schema msg name → field? store dataset key name = none

variable {service : DataService} {host : DataHost} {store after : Store} {msg resp : Message}

variable {value stored final : Value} {dataset key : Str}

theorem bodyIsObject_eq {missing : Str} (read : bodyJson host msg missing = .ok value) :
    bodyIsObject host msg = value.isObject := by
  unfold bodyIsObject
  have same : bodyJson host msg [] = .ok value := by
    unfold bodyJson at read ⊢
    cases body : msg.body with
    | none => simp [body] at read
    | some content => simpa [body] using read
  rw [same]

theorem field?_put (store : Store) (dataset key : Str) (value : Value) (dataset' key' name : Str) :
    field? (put store dataset key value).2 dataset' key' name =
      if dataset' = dataset ∧ key' = key then value.get? name
      else field? store dataset' key' name := by
  unfold field?
  rw [record?_put]
  split <;> rfl

theorem field?_eq_get?_getOrNull (store : Store) (dataset key name : Str) :
    field? store dataset key name = (getOrNull store dataset key).get? name := by
  unfold field? getOrNull
  cases record? store dataset key <;> rfl

/-! ## The checks of a write -/

/-- With field rules on, an object that is admitted keeps its protected fields. -/
theorem admit_keeps (authz : service.fieldAuthz = true) {schema : Value}
    (admitted : service.admitWrite host msg dataset (some schema) stored value = .ok final)
    (isObject : value.isObject = true) {name : Str} (held : Protected schema msg name) :
    final.get? name = stored.get? name := by
  simp only [admitWrite, enforce, authz, if_true, bind_eq_ok, pure_eq_ok] at admitted
  obtain ⟨enforced, ran, _, _, rfl⟩ := admitted
  exact get?_enforceWriteRules_of_protected isObject ran held

/-- A value that is not an object is admitted as it is. -/
theorem admit_of_not_object {schema : Option Value}
    (admitted : service.admitWrite host msg dataset schema stored value = .ok final)
    (notObject : value.isObject = false) : final = value := by
  cases schema with
  | none => exact (Except.ok.inj admitted).symm
  | some schema =>
    simp only [admitWrite, enforce, enforceWriteRules_of_not_object notObject, ite_self,
      bind_eq_ok, pure_eq_ok, Except.ok.injEq] at admitted
    obtain ⟨enforced, rfl, _, _, rfl⟩ := admitted
    rfl

theorem schemaFor_of_authz (authz : service.fieldAuthz = true) (dataset : Str) :
    service.schemaFor store dataset = getSchema store dataset := by
  simp [schemaFor, authz]

/-! ## The frame of one stored record -/

/-- Storing an admitted object keeps the frame. -/
theorem keepsProtected_put_of_object (authz : service.fieldAuthz = true)
    (current : ∀ name, stored.get? name = field? store dataset key name) (admitted :
      service.admitWrite host msg dataset (getSchema store dataset) stored value = .ok final)
    (isObject : value.isObject = true) :
    KeepsProtected store (put store dataset key final).2 msg := by
  intro dataset' key' name schema schemaEq held
  rw [field?_put]
  split
  next target =>
    obtain ⟨rfl, rfl⟩ := target
    rw [schemaEq] at admitted
    rw [admit_keeps authz admitted isObject held, current]
  next => rfl

/-- Storing a value that is not an object keeps the frame exactly when the record had no
protected field. -/
theorem keepsProtected_put_of_not_object_iff (notObject : value.isObject = false) :
    KeepsProtected store (put store dataset key value).2 msg ↔
      ∀ name schema, getSchema store dataset = some schema → Protected schema msg name →
        field? store dataset key name = none := by
  constructor
  · intro keeps name schema schemaEq held
    have kept := keeps dataset key name schema schemaEq held
    rw [field?_put, if_pos ⟨rfl, rfl⟩, get?_of_not_object notObject] at kept
    exact kept.symm
  · intro bare dataset' key' name schema schemaEq held
    rw [field?_put]
    split
    next target =>
      obtain ⟨rfl, rfl⟩ := target
      rw [bare name schema schemaEq held, get?_of_not_object notObject]
    next => rfl

theorem nothingToProtect_iff (target : msg.url.serviceSegments = [dataset, key])
    (notSchema : key ≠ schemaResource) :
    NothingToProtect store msg ↔
      ∀ name schema, getSchema store dataset = some schema → Protected schema msg name →
        field? store dataset key name = none := by
  constructor
  · intro bare name schema
    exact bare dataset key name schema target notSchema
  · intro bare dataset' key' name schema target' _
    rw [target] at target'
    cases target'
    exact bare name schema

/-- A write to the addressed record keeps the frame exactly when its body is an object or
the record had nothing to protect.  `change` turns the body into the proposed record: the
body itself, or its merge into the stored record. -/
theorem keepsProtected_record_iff (authz : service.fieldAuthz = true) {missing : Str}
    (target : msg.url.serviceSegments = [dataset, key]) (notSchema : key ≠ schemaResource)
    (change : Value → Value) (sameShape : (change value).isObject = value.isObject)
    (current : ∀ name, stored.get? name = field? store dataset key name)
    (read : bodyJson host msg missing = .ok value) (admitted :
      service.admitWrite host msg dataset (getSchema store dataset) stored (change value) =
        .ok final) :
    KeepsProtected store (put store dataset key final).2 msg ↔
      bodyIsObject host msg = true ∨ NothingToProtect store msg := by
  rw [bodyIsObject_eq read]
  cases shape : value.isObject with
  | true =>
    have keeps := keepsProtected_put_of_object authz current admitted (sameShape.trans shape)
    simp [keeps]
  | false =>
    have notObject : (change value).isObject = false := sameShape.trans shape
    rw [admit_of_not_object admitted notObject,
      keepsProtected_put_of_not_object_iff notObject, nothingToProtect_iff target notSchema]
    simp

/-! ## Every successful write -/

/-- A request whose path is no record keeps nothing at risk. -/
theorem nothingToProtect_of_not_record
    (elsewhere : ∀ dataset key, msg.url.serviceSegments = [dataset, key] →
      key = schemaResource) :
    NothingToProtect store msg :=
  fun dataset key _ _ target notSchema => absurd (elsewhere dataset key target) notSchema

theorem keepsProtected_of_records_eq
    (same : ∀ dataset key, record? after dataset key = record? store dataset key) :
    KeepsProtected store after msg := by
  intro dataset key name _ _ _
  rw [field?, field?, same]

/-- Creating a record under an unused key keeps the frame. -/
theorem createRecord_keeps (authz : service.fieldAuthz = true)
    (unused : ∀ dataset, record? store dataset host.freshKey = none)
    (done : service.createRecord host store msg dataset = .ok (resp, after)) :
    KeepsProtected store after msg := by
  simp only [createRecord, schemaFor_of_authz authz, bind_eq_ok, pure_eq_ok,
    Prod.mk.injEq] at done
  obtain ⟨value, _, final, admitted, _, rfl⟩ := done
  have absent : ∀ name, (Value.null).get? name = field? store dataset host.freshKey name := by
    intro name
    rw [field?, unused]
    rfl
  cases shape : value.isObject with
  | true => exact keepsProtected_put_of_object authz absent admitted shape
  | false =>
    rw [admit_of_not_object admitted shape, keepsProtected_put_of_not_object_iff shape]
    intro name _ _ _
    rw [← absent name]
    rfl

theorem installSchema_keeps
    (done : service.installSchema host store msg dataset = .ok (resp, after)) :
    KeepsProtected store after msg := by
  simp only [installSchema, bind_eq_ok] at done
  obtain ⟨_, _, schema, _, installed⟩ := done
  split at installed
  · cases installed
  · cases installed
    exact keepsProtected_of_records_eq (record?_putSchema store dataset schema)

theorem upsert_keeps_iff (authz : service.fieldAuthz = true)
    (target : msg.url.serviceSegments = [dataset, key]) (notSchema : key ≠ schemaResource)
    (done : service.upsert host store msg dataset key = .ok (resp, after)) :
    KeepsProtected store after msg ↔
      bodyIsObject host msg = true ∨ NothingToProtect store msg := by
  simp only [upsert, schemaFor_of_authz authz, bind_eq_ok, pure_eq_ok, Prod.mk.injEq] at done
  obtain ⟨_, _, value, read, final, admitted, _, rfl⟩ := done
  have current : ∀ name, (getOrNull store dataset key).get? name =
      field? store dataset key name :=
    fun name => (field?_eq_get?_getOrNull store dataset key name).symm
  exact keepsProtected_record_iff authz target notSchema id rfl current read admitted

theorem patch_keeps_iff (authz : service.fieldAuthz = true)
    (target : msg.url.serviceSegments = [dataset, key]) (notSchema : key ≠ schemaResource)
    (done : service.patch host store msg dataset key = .ok (resp, after)) :
    KeepsProtected store after msg ↔
      bodyIsObject host msg = true ∨ NothingToProtect store msg := by
  simp only [patch, schemaFor_of_authz authz, bind_eq_ok, pure_eq_ok, Prod.mk.injEq] at done
  obtain ⟨value, read, stored, found, final, admitted, _, rfl⟩ := done
  have current : ∀ name, stored.get? name = field? store dataset key name := by
    intro name
    unfold MemData.get at found
    split at found
    next record recordEq =>
      cases found
      rw [field?, recordEq]
      rfl
    next => cases found
  exact keepsProtected_record_iff authz target notSchema (mergePatch · stored)
    (isObject_mergePatch value stored) current read admitted

/-- A successful PUT, POST or PATCH keeps every field its caller may not read or not write
exactly when its body is a JSON object or the addressed record had no such field.  Keys
drawn for new records are assumed unused. -/
theorem success_keeps_protected_iff (service : DataService) (host : DataHost)
    (store after : Store) (msg resp : Message) (authz : service.fieldAuthz = true)
    (unused : ∀ dataset, record? store dataset host.freshKey = none)
    (isWrite : msg.method = .put ∨ msg.method = .post ∨ msg.method = .patch)
    (done : service.handle host store msg = .ok (resp, after)) :
    KeepsProtected store after msg ↔
      bodyIsObject host msg = true ∨ NothingToProtect store msg := by
  unfold handle at done
  split at done
  next root =>
    rcases isWrite with put | post | patch <;> simp_all [handleRoot]
  next dataset container =>
    have bare : NothingToProtect store msg :=
      nothingToProtect_of_not_record (by simp [container])
    split at done
    · rcases isWrite with put | post | patch <;> simp_all [handleSchemas]
    · rcases isWrite with put | post | patch
      · simp [handleDataset, put] at done
      · simp only [handleDataset, post] at done
        simp [createRecord_keeps authz unused done, bare]
      · simp [handleDataset, patch] at done
  next dataset key target =>
    split at done
    next isSchema =>
      have bare : NothingToProtect store msg := by
        refine nothingToProtect_of_not_record fun dataset' key' same => ?_
        rw [target] at same
        simp_all
      rcases isWrite with put | post | patch
      · simp only [handleSchema, put] at done
        simp [installSchema_keeps done, bare]
      · simp [handleSchema, post] at done
      · simp [handleSchema, patch] at done
    next notSchema =>
      rcases isWrite with put | post | patch
      · simp only [handleRecord, put] at done
        exact upsert_keeps_iff authz target notSchema done
      · simp only [handleRecord, post] at done
        exact upsert_keeps_iff authz target notSchema done
      · simp only [handleRecord, patch] at done
        exact patch_keeps_iff authz target notSchema done
  next => cases done

/-! ## A payroll dataset -/

/-- Salaries are for the `hr` role only. -/
def payrollSchema : Value :=
  .object [("properties", .object [("salary", .object [("x-rs-read", .str "hr")])])]

def payroll : Store :=
  [("people",
    ⟨[("ann", .object [("name", .str "Ann"), ("salary", .num (.int 100))])],
      some payrollSchema⟩)]

def payrollService : DataService where
  enforceSchema := false
  fieldAuthz := true

/-- An anonymous PUT of a record. -/
def putAnn (value : Value) : Message :=
  { Message.request .put "/people/ann" "acme" "trace" with
    body := some (Body.fromJson Tagged.codec value) }

/-- Replacing a record by an array drops the field its caller may not read. -/
theorem put_of_array_drops_hidden_field :
    ∃ resp after,
      payrollService.handle .plain payroll (putAnn (.arr [])) = .ok (resp, after) ∧
        resp.status = some 200 ∧ Hidden payrollSchema (putAnn (.arr [])) "salary" ∧
        field? payroll "people" "ann" "salary" = some (.num (.int 100)) ∧
        field? after "people" "ann" "salary" = none :=
  ⟨_, _, rfl, rfl, by decide, rfl, rfl⟩

theorem freshKey_unused_payroll (dataset : Str) :
    record? payroll dataset DataHost.plain.freshKey = none := by
  by_cases same : ("people" : Str) = dataset
  · subst same
    rfl
  · rw [record?, payroll, OrderedMap.get?_cons, if_neg same]
    rfl

/-- Replacing the record by an object restores it. -/
theorem put_of_object_keeps_salary :
    ∃ resp after,
      payrollService.handle .plain payroll (putAnn (.object [("name", .str "Anna")])) =
        .ok (resp, after) ∧
      KeepsProtected payroll after (putAnn (.object [("name", .str "Anna")])) :=
  ⟨_, _, rfl,
    (success_keeps_protected_iff payrollService .plain payroll _ _ _ rfl
      freshKey_unused_payroll (Or.inl rfl) rfl).mpr (Or.inl rfl)⟩

end Rs2Runtime.Services.DataService
