import Rs2Runtime.Services.Data

/-!
Contract: what a read shows of fields its caller may not read.

Owns:
- redaction as the visible part of a record;
- stores that differ only in fields hidden from one caller;
- that reads of two such stores give the caller the same response, up to the entity tag of
  a record and for listings that are not sorted by a hidden field.

Does not own: writes, whose effect on hidden fields is a separate contract.
-/

namespace Rs2Runtime.Services.DataService

open Text Data Data.Outcome Json
open Listing Adapters Adapters.MemData
open Services.FieldRules

/-- Whether the mount hides a field of a dataset from the caller. -/
def hides (service : DataService) (schema : Option Value) (msg : Message) (name : Str) : Bool :=
  match schema with
  | some schema => service.fieldAuthz && decide (Hidden schema msg name)
  | none => false

/-! ## Redaction -/

theorem redactRules_eq_visible (msg : Message) (rules : List FieldRule) (fields : Object) :
    redactRules msg rules fields =
      OrderedMap.visible
        (fun name => decide (∃ rule ∈ rules, rule.name = name ∧ rule.readable msg = false))
        fields := by
  induction rules generalizing fields with
  | nil => simp [redactRules, OrderedMap.visible]
  | cons rule rules ih =>
    rw [redactRules, ih]
    cases shownRule : rule.readable msg with
    | true => simp [shownRule]
    | false =>
      unfold OrderedMap.visible OrderedMap.erase
      rw [if_neg (by simp), List.filter_filter]
      refine List.filter_congr fun entry _ => ?_
      by_cases same : entry.1 = rule.name
      · simp [shownRule, same]
      · simp [shownRule, same, Ne.symm same]

/-- A record is shown as its visible part. -/
theorem shown_obj (service : DataService) (schema : Option Value) (msg : Message)
    (fields : Object) :
    service.shown schema msg (.obj fields) =
      .obj (OrderedMap.visible (service.hides schema msg) fields) := by
  cases schema with
  | none => simp [shown, hides, OrderedMap.visible]
  | some schema =>
    cases authz : service.fieldAuthz with
    | false => simp [shown, hides, OrderedMap.visible, authz]
    | true =>
      have sameHidden : service.hides (some schema) msg =
          fun name => decide (Hidden schema msg name) := by
        funext name
        simp [hides, authz]
      simp only [shown, authz, if_true, redactFields, redactRules_eq_visible, sameHidden]
      rfl

/-- Leaving out the schema where field rules are off does not change what is shown. -/
theorem shown_ite_authz (service : DataService) (schema : Option Value) (msg : Message)
    (value : Value) :
    service.shown (if service.fieldAuthz then schema else none) msg value =
      service.shown schema msg value := by
  cases authz : service.fieldAuthz <;> cases schema <;> simp [shown, authz]

theorem shown_congr {service : DataService} {schema : Option Value} {msg : Message}
    {left right : Value} (same : SameShown (service.hides schema msg) left right) :
    service.shown schema msg left = service.shown schema msg right := by
  rcases same with rfl | ⟨a, b, rfl, rfl, visibleEq⟩
  · rfl
  · rw [shown_obj, shown_obj, visibleEq]

theorem map_projectedEntry_congr {service : DataService} {schema : Option Value} {msg : Message}
    {left right : List (Str × Value)}
    (same : RelatedMaps (SameShown (service.hides schema msg)) left right) :
    left.map (service.projectedEntry (if service.fieldAuthz then schema else none) msg) =
      right.map (service.projectedEntry (if service.fieldAuthz then schema else none) msg) := by
  unfold RelatedMaps at same
  induction same with
  | nil => rfl
  | cons first _ ih =>
    rw [List.map_cons, List.map_cons, ih, projectedEntry, projectedEntry,
      shown_ite_authz, shown_ite_authz, first.1, shown_congr first.2]

/-! ## Stores that look alike -/

/-- Two datasets with the same schema and keys, whose records differ only in fields hidden
from the caller. -/
def SameDataset (service : DataService) (msg : Message) (left right : Dataset) : Prop :=
  left.schema = right.schema ∧
    RelatedMaps (SameShown (service.hides left.schema msg)) left.records right.records

/-- Stores that differ only in fields hidden from the caller. -/
def SameStore (service : DataService) (msg : Message) (left right : Store) : Prop :=
  RelatedMaps (SameDataset service msg) left right

variable {service : DataService} {host : DataHost} {left right : Store} {msg : Message}

theorem SameStore.getSchema_eq (same : SameStore service msg left right) (dataset : Str) :
    getSchema left dataset = getSchema right dataset := by
  unfold getSchema
  rcases RelatedMaps.get? same dataset with ⟨absent, absent'⟩ | ⟨a, b, found, found', alike⟩
  · rw [absent, absent']
  · rw [found, found']
    exact alike.1

theorem SameStore.record (same : SameStore service msg left right) (dataset key : Str) :
    (record? left dataset key = none ∧ record? right dataset key = none) ∨
      ∃ old new, record? left dataset key = some old ∧ record? right dataset key = some new ∧
        SameShown (service.hides (getSchema left dataset) msg) old new := by
  unfold record? getSchema
  rcases RelatedMaps.get? same dataset with ⟨absent, absent'⟩ | ⟨a, b, found, found', alike⟩
  · rw [absent, absent']
    exact Or.inl ⟨rfl, rfl⟩
  · rw [found, found']
    exact alike.2.get? key

theorem SameStore.listDatasets_eq (same : SameStore service msg left right) (take skip : Nat) :
    listDatasets left take skip = listDatasets right take skip := by
  rw [listDatasets, listDatasets, RelatedMaps.keys_eq same, List.Forall₂.length_eq same]

theorem SameStore.listKeys_eq (same : SameStore service msg left right) (dataset : Str)
    (take skip : Nat) : listKeys left dataset take skip = listKeys right dataset take skip := by
  unfold listKeys
  rcases RelatedMaps.get? same dataset with ⟨absent, absent'⟩ | ⟨a, b, found, found', alike⟩
  · rw [absent, absent']
  · rw [found, found']
    simp only [alike.2.keys_eq, List.Forall₂.length_eq alike.2]

/-- A page of projected records looks the same in both stores, if every sort key starts at
a shown field. -/
theorem SameStore.listRecords (same : SameStore service msg left right) (codec : Codec)
    (dataset : Str) (spec : ListSpec)
    (shownKeys : ∀ key ∈ spec.sort,
      StartsShown (service.hides (getSchema left dataset) msg) key.1) :
    (listRecords codec left dataset spec = .error (noDataset dataset) ∧
        listRecords codec right dataset spec = .error (noDataset dataset)) ∨
      ∃ leftPage rightPage total,
        listRecords codec left dataset spec = .ok (leftPage, total) ∧
        listRecords codec right dataset spec = .ok (rightPage, total) ∧
        RelatedMaps (SameShown (service.hides (getSchema left dataset) msg))
          leftPage rightPage := by
  unfold MemData.listRecords getSchema at *
  rcases RelatedMaps.get? same dataset with ⟨absent, absent'⟩ | ⟨a, b, found, found', alike⟩
  · rw [absent, absent']
    exact Or.inl ⟨rfl, rfl⟩
  · rw [found] at shownKeys
    rw [found, found']
    have total := List.Forall₂.length_eq alike.2
    refine Or.inr ⟨_, _, _, rfl, by rw [total], ?_⟩
    refine List.forall₂_map_left_iff.mpr (List.forall₂_map_right_iff.mpr ?_)
    have sorted : RelatedMaps (SameShown (service.hides a.schema msg))
        (if spec.sort = [] then a.records
          else a.records.insertionSort (recordLe codec spec.sort))
        (if spec.sort = [] then b.records
          else b.records.insertionSort (recordLe codec spec.sort)) := by
      split
      · exact alike.2
      · exact forall₂_insertionSort (recordLe_congr shownKeys) alike.2
    exact (List.forall₂_take _ (List.forall₂_drop _ sorted)).imp fun _ _ sameRecord =>
      ⟨sameRecord.1, sameShown_project sameRecord.2 spec.fields⟩

/-! ## Reads -/

/-- The keys of a listing's `$sort` that can be parsed start at fields the caller may
read. -/
def SortsByShown (service : DataService) (store : Store) (msg : Message) : Prop :=
  ∀ dataset, msg.url.serviceSegments = [dataset] →
    ∀ sort, msg.url.queryParam "$sort" = some sort → ∀ text ∈ sort.splitOn ',',
      ∀ path dir, parseSortKey text = .ok (path, dir) → ∀ head, path.head? = some head →
        service.hides (getSchema store dataset) msg head = false

/-- The request's `If-None-Match` has the same outcome for both records at its path. -/
def RevalidatesAlike (host : DataHost) (left right : Store) (msg : Message) : Prop :=
  ∀ dataset key old new, msg.url.serviceSegments = [dataset, key] →
    record? left dataset key = some old → record? right dataset key = some new →
      ifNoneMatchHits (msg.header "if-none-match") (recordEtag host old) =
        ifNoneMatchHits (msg.header "if-none-match") (recordEtag host new)

/-- A response without its entity tag. -/
def withoutEtag (resp : Message) : Message :=
  { resp with headers := resp.headers.filter fun line => line.1 ≠ "etag" }

/-- Setting the entity tag does not show in a response without it. -/
theorem withoutEtag_setHeader (resp : Message) (tag : Str) :
    withoutEtag (resp.setHeader "etag" tag) = withoutEtag resp := by
  unfold withoutEtag Message.setHeader
  split
  · simp [HeaderMap.set, List.filter_filter]
  · rfl

theorem plainListing_eq (same : SameStore service msg left right) (dataset : Str) :
    (plainListing host left msg dataset).map Prod.fst =
      (plainListing host right msg dataset).map Prod.fst := by
  simp only [plainListing, same.listKeys_eq, same.getSchema_eq]
  exact map_bind_congr fun _ _ => map_bind_congr fun _ _ => rfl

theorem projectedListing_eq (same : SameStore service msg left right) {dataset : Str}
    (container : msg.url.serviceSegments = [dataset]) (sorted : SortsByShown service left msg)
    (select : Str) :
    (service.projectedListing host left msg dataset select).map Prod.fst =
      (service.projectedListing host right msg dataset select).map Prod.fst := by
  refine map_bind_congr fun spec parsed => ?_
  have shownKeys : ∀ key ∈ spec.sort,
      StartsShown (service.hides (getSchema left dataset) msg) key.1 := by
    rintro ⟨path, dir⟩ member
    obtain ⟨sort, sortEq, text, textMember, read⟩ :=
      ListSpec.exists_key_of_parse parsed member
    have nonEmpty : path ≠ [] := ne_nil_of_parseSortKey read
    obtain ⟨head, rest, rfl⟩ := List.exists_cons_of_ne_nil nonEmpty
    exact ⟨head, rest, rfl,
      sorted dataset container sort sortEq text textMember _ dir read head rfl⟩
  rcases same.listRecords host.codec dataset spec shownKeys with
    ⟨leftMissing, rightMissing⟩ | ⟨leftPage, rightPage, total, leftFound, rightFound, pages⟩
  · rw [leftMissing, rightMissing]
    rfl
  · have entries := map_projectedEntry_congr pages
    simp only [bind, Except.bind, leftFound, rightFound, pure, Except.pure, Except.map,
      ← same.getSchema_eq, entries]

theorem readRecord_eq (same : SameStore service msg left right) {dataset key : Str}
    (target : msg.url.serviceSegments = [dataset, key])
    (alike : RevalidatesAlike host left right msg) :
    (service.readRecord host left msg dataset key).map (withoutEtag ∘ Prod.fst) =
      (service.readRecord host right msg dataset key).map (withoutEtag ∘ Prod.fst) := by
  unfold readRecord MemData.get
  rcases same.record dataset key with
    ⟨absent, absent'⟩ | ⟨old, new, found, found', sameRecord⟩
  · rw [absent, absent']
    rfl
  · have outcome := alike dataset key old new target found found'
    have sameBody := shown_congr sameRecord
    rw [found, found']
    simp only [bind, Except.bind, outcome, shown_ite_authz, ← same.getSchema_eq, sameBody]
    split <;>
      simp only [pure, Except.pure, Except.map, Function.comp, withoutEtag_setHeader]

/-- Every read but that of a record gives the caller the same response. -/
theorem handle_eq_of_not_record (isGet : msg.method = .get)
    (same : SameStore service msg left right)
    (notRecord : ∀ dataset key, msg.url.serviceSegments = [dataset, key] →
      key = schemaResource)
    (sorted : SortsByShown service left msg) :
    (service.handle host left msg).map Prod.fst =
      (service.handle host right msg).map Prod.fst := by
  unfold handle
  split
  next root =>
    simp only [handleRoot, isGet, same.listDatasets_eq, Except.map]
  next dataset container =>
    split
    · simp only [handleSchemas, isGet, same.listDatasets_eq, same.getSchema_eq, Except.map]
    · simp only [handleDataset, isGet]
      split
      next select _ => exact projectedListing_eq same container sorted select
      next => exact plainListing_eq same dataset
  next dataset key target =>
    rw [if_pos (notRecord dataset key target), if_pos (notRecord dataset key target)]
    simp only [handleSchema, isGet, same.getSchema_eq]
    split <;> rfl
  next => rfl

/-- Reads of two stores that differ only in fields hidden from the caller.  A record is
answered alike up to its entity tag, which covers the whole record, if `If-None-Match` has
the same outcome for both.  Every other read is answered alike, if a listing is not sorted
by a hidden field. -/
theorem reads_ignore_hidden_fields (service : DataService) (host : DataHost) (left right : Store)
    (msg : Message) (isGet : msg.method = .get) (same : SameStore service msg left right) :
    (∀ dataset key, msg.url.serviceSegments = [dataset, key] → key ≠ schemaResource →
      RevalidatesAlike host left right msg →
        (service.handle host left msg).map (withoutEtag ∘ Prod.fst) =
          (service.handle host right msg).map (withoutEtag ∘ Prod.fst)) ∧
    ((∀ dataset key, msg.url.serviceSegments = [dataset, key] → key = schemaResource) →
      SortsByShown service left msg →
        (service.handle host left msg).map Prod.fst =
          (service.handle host right msg).map Prod.fst) := by
  constructor
  · intro dataset key target notSchema alike
    simp only [handle, target, if_neg notSchema, handleRecord, isGet]
    exact readRecord_eq same target alike
  · intro notRecord sorted
    exact handle_eq_of_not_record isGet same notRecord sorted

/-! ## Two staff registers -/

/-- A register that shows salaries to the `hr` role only; the salary of one record is a
parameter. -/
def staff (salary : Int) : Store :=
  [("people",
    { records := [
        ("ann", .object [("name", .str "Ann"), ("salary", .num (.int salary))]),
        ("bob", .object [("name", .str "Bob"), ("salary", .num (.int 200))])]
      schema := some (.object
        [("properties", .object [("salary", .object [("x-rs-read", .str "hr")])])]) })]

def staffService : DataService where
  enforceSchema := false
  fieldAuthz := true

def staffHost : DataHost where
  codec := Tagged.codec
  hash := fun text => [UInt8.ofNat (text.foldl (fun sum c => sum + c.toNat) 0)]
  schemaError := fun _ => none
  violations := fun _ _ => []
  materializedBodyBytes := 1000
  operatorRoles := none
  freshKey := "new"

/-- An anonymous read. -/
def readStaff (pathAndQuery : Str) : Message :=
  Message.request .get pathAndQuery "acme" "trace"

theorem staff_sameStore (pathAndQuery : Str) :
    SameStore staffService (readStaff pathAndQuery) (staff 100) (staff 300) := by
  refine .cons ⟨rfl, rfl, .cons ⟨rfl, ?_⟩ (.cons ⟨rfl, Or.inl rfl⟩ .nil)⟩ .nil
  exact Or.inr ⟨_, _, rfl, rfl, rfl⟩

/-- The entity tag of an answer. -/
def answerEtag : Except RsError (Message × Store) → Option Str
  | .ok answer => answer.1.header "etag"
  | .error _ => none

/-- The octets of an answer's body. -/
def answerOctets : Except RsError (Message × Store) → Option Octets
  | .ok answer =>
    match answer.1.body with
    | some ⟨.bytes octets, _, _⟩ => some octets
    | _ => none
  | .error _ => none

/-- A hidden salary shows in the entity tag of its record, and in the order of a listing
that is sorted by it. -/
theorem hidden_salary_shows_in_etag_and_order :
    SameStore staffService (readStaff "/people/ann") (staff 100) (staff 300) ∧
    answerEtag (staffService.handle staffHost (staff 100) (readStaff "/people/ann")) ≠
      answerEtag (staffService.handle staffHost (staff 300) (readStaff "/people/ann")) ∧
    answerOctets (staffService.handle staffHost (staff 100)
        (readStaff "/people/?$select=name&$sort=salary")) ≠
      answerOctets (staffService.handle staffHost (staff 300)
        (readStaff "/people/?$select=name&$sort=salary")) := by
  refine ⟨staff_sameStore _, ?_, ?_⟩ <;> decide +kernel

/-- The record itself is answered alike. -/
theorem read_of_ann_ignores_salary :
    (staffService.handle staffHost (staff 100) (readStaff "/people/ann")).map
        (withoutEtag ∘ Prod.fst) =
      (staffService.handle staffHost (staff 300) (readStaff "/people/ann")).map
        (withoutEtag ∘ Prod.fst) :=
  (reads_ignore_hidden_fields staffService staffHost (staff 100) (staff 300)
    (readStaff "/people/ann") rfl (staff_sameStore _)).1 "people" "ann" rfl (by decide)
    (fun _ _ _ _ _ _ _ => rfl)

end Rs2Runtime.Services.DataService
