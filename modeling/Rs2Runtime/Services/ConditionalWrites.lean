import Rs2Runtime.Message.Headers
import Rs2Runtime.Services.Data

/-!
Contract: which conditional writes of records succeed.

Owns:
- the precondition that the headers of a request state about the record as GET serves it;
- that the checks of a write are those of the same request without conditional headers and the
  check of its headers;
- the requests for which a write succeeds exactly under its precondition.

Does not own: requests that interleave with the write.

## Where the two part

The checks of PUT, POST and DELETE read a stored null as a missing record.  They read
`If-None-Match` only for a star, and with one they do not read `If-Match`.  PATCH reads neither
header.
-/

namespace Rs2Runtime.Services.DataService

open Text Data Data.Outcome Json
open Adapters Adapters.MemData

variable (service : DataService) (host : DataHost) (store : Store) (msg : Message)
  (dataset key : Str)

/-! ## The precondition -/

/-- The entity tag that GET serves. -/
def servedTag : Option Str :=
  match service.readRecord host store { msg with method := .get } dataset key with
  | .ok (response, _) => response.header "etag"
  | .error _ => none

/-- A header lists an entity tag: an entry between its commas is a star, or the tag behind marks
`W/`.  The mark is that of a weak validator, and makes no difference to what an entry names. -/
def Listed (tags tag : Str) : Prop :=
  ∃ entry ∈ tags.splitOn ',', trim entry = "*" ∨
    ∃ marks : Nat, trim entry = (List.replicate marks ("W/" : Str)).flatten ++ tag

/-- The precondition of a request: `If-Match` lists the tag of a stored record, and
`If-None-Match` does not list it. -/
structure PreconditionHolds : Prop where
  ifMatch : ∀ tags, msg.header "if-match" = some tags →
    ∃ tag, service.servedTag host store msg dataset key = some tag ∧ Listed tags tag
  ifNoneMatch : ∀ tags, msg.header "if-none-match" = some tags →
    ∀ tag, service.servedTag host store msg dataset key = some tag → ¬ Listed tags tag

/-- The request without its conditional headers. -/
def unconditional : Message :=
  { msg with
    headers := msg.headers.filter fun line => line.1 ≠ "if-match" ∧ line.1 ≠ "if-none-match" }

/-- A header of the request names the tag of a record. -/
def Names (header : Str) (record : Value) : Prop :=
  ∃ tags, msg.header header = some tags ∧ Listed tags (recordEtag host record)

/-- The requests whose checks decide on the record as it is stored. -/
def ChecksStored (stored : Option Value) : Prop :=
  match stored with
  | none => writePrecondition msg = .ifNoneMatchStar → msg.header "if-match" = none
  | some record =>
    match msg.method, writePrecondition msg with
    | .patch, _ => (msg.header "if-match" = none ∨ Names host msg "if-match" record) ∧
        ¬ Names host msg "if-none-match" record
    | _, .none => ¬ Names host msg "if-none-match" record
    | _, .ifNoneMatchStar => record ≠ .null
    | .delete, .ifMatch _ => (record = .null → Names host msg "if-match" record) ∧
        (Names host msg "if-match" record → ¬ Names host msg "if-none-match" record)
    | _, .ifMatch _ => Names host msg "if-match" record →
        (record = .null ↔ Names host msg "if-none-match" record)

/-! ## What the headers say -/

variable {service host store msg dataset key}

/-- Dropping marks finds a quoted tag behind any number of them. -/
theorem dropWeak_eq_iff {turns : Nat} {entry tag : Str} (enough : entry.length ≤ turns) :
    dropWeak turns entry = '"' :: tag ↔
      ∃ marks : Nat, entry = (List.replicate marks ("W/" : Str)).flatten ++ '"' :: tag := by
  induction turns generalizing entry with
  | zero =>
    cases List.length_eq_zero_iff.mp (Nat.le_zero.mp enough)
    refine ⟨nofun, fun ⟨marks, same⟩ => ?_⟩
    cases List.append_eq_nil_iff.mp same.symm |>.2
  | succ turns ih =>
    rw [dropWeak]
    cases stripped : stripStart "W/" entry with
    | some rest =>
      rw [stripStart_eq_some] at stripped
      subst stripped
      dsimp only
      rw [ih (by rw [List.length_append] at enough; simp at enough; omega)]
      constructor
      · rintro ⟨marks, rfl⟩
        exact ⟨marks + 1, rfl⟩
      · rintro ⟨marks, same⟩
        cases marks with
        | zero => cases same
        | succ marks => exact ⟨marks, List.append_cancel_left same⟩
    | none =>
      dsimp only
      constructor
      · rintro rfl
        exact ⟨0, rfl⟩
      · rintro ⟨marks, rfl⟩
        cases marks with
        | zero => rfl
        | succ marks => cases stripped.symm.trans (stripStart_eq_some.mpr rfl)

/-- The comparison of the code finds the listed tags. -/
theorem ifMatchHits_iff_listed {tags : Str} {record : Value} :
    ifMatchHits tags (recordEtag host record) = true ↔ Listed tags (recordEtag host record) := by
  rw [ifMatchHits, List.any_map, List.any_eq_true, Listed]
  refine exists_congr fun entry => and_congr_right fun _ => ?_
  rw [Function.comp_apply, Bool.or_eq_true, decide_eq_true_eq, decide_eq_true_eq]
  exact or_congr_right (dropWeak_eq_iff (Nat.le_refl _))

theorem isVisibleAscii_recordEtag (record : Value) :
    isVisibleAscii (recordEtag host record) = true := by
  unfold isVisibleAscii recordEtag toHex
  rw [List.all_eq_true]
  have digits : ∀ n < 16, 0x20 ≤ (hexDigit n).toNat ∧ (hexDigit n).toNat < 0x7f := by decide
  intro c member
  simp only [List.cons_append, List.mem_cons, List.mem_append, List.mem_flatMap,
    List.not_mem_nil, or_false] at member
  rcases member with rfl | ⟨octet, _, rfl | rfl⟩ | rfl
  · decide
  · have low := digits (octet.toNat / 16) (by have := octet.toNat_lt; omega)
    simp [low]
  · have low := digits (octet.toNat % 16) (by omega)
    simp [low]
  · decide

theorem servedTag_eq :
    service.servedTag host store msg dataset key =
      (record? store dataset key).map (recordEtag host) := by
  unfold servedTag readRecord MemData.get
  cases record? store dataset key with
  | none => rfl
  | some record =>
    dsimp only [bind, Except.bind, pure, Except.pure, Option.map]
    by_cases hits : ifNoneMatchHits (({ msg with method := .get } : Message).header "if-none-match")
        (recordEtag host record) = true
    · rw [if_pos hits]
      exact header_setHeader_self (isVisibleAscii_recordEtag record) _ _
    · rw [if_neg hits]
      exact header_setHeader_self (isVisibleAscii_recordEtag record) _ _

theorem header_unconditional {name : Str} (conditional : name = "if-match" ∨ name = "if-none-match") :
    (unconditional msg).header name = none := by
  have absent : (unconditional msg).headers.first name = none := by
    refine OrderedMap.get?_eq_none.mpr fun member => ?_
    obtain ⟨line, kept, rfl⟩ := List.mem_map.mp member
    have others := (List.mem_filter.mp kept).2
    rw [decide_eq_true_eq] at others
    exact conditional.elim others.1 others.2
  rw [Message.header, absent]
  rfl

theorem writePrecondition_unconditional : writePrecondition (unconditional msg) = .none := by
  unfold writePrecondition
  rw [header_unconditional (.inr rfl), header_unconditional (.inl rfl)]
  rfl

/-- What the three readings of the headers tell about them. -/
theorem writePrecondition_cases :
    (writePrecondition msg = .ifNoneMatchStar ∧
      ∃ tags, msg.header "if-none-match" = some tags ∧ ∀ tag, Listed tags tag) ∨
    (writePrecondition msg = .none ∧ msg.header "if-match" = none) ∨
    ∃ want, writePrecondition msg = .ifMatch want ∧ msg.header "if-match" = some want := by
  unfold writePrecondition
  dsimp only
  split_ifs with star
  · left
    refine ⟨rfl, ?_⟩
    cases none_ : msg.header "if-none-match" with
    | none =>
      rw [none_] at star
      cases star
    | some tags =>
      rw [none_] at star
      refine ⟨tags, rfl, fun tag => ?_⟩
      rw [List.any_eq_true] at star
      obtain ⟨candidate, trimmed, isStar⟩ := star
      obtain ⟨entry, member, rfl⟩ := List.mem_map.mp trimmed
      exact ⟨entry, member, .inl (of_decide_eq_true isStar)⟩
  · right
    cases msg.header "if-match" with
    | none => exact .inl ⟨rfl, rfl⟩
    | some want => exact .inr ⟨want, rfl, rfl⟩

/-! ## What a write checks -/

theorem enforceRules_unconditional (stored : Value) (rules : List FieldRules.FieldRule)
    (fields : Object) :
    FieldRules.enforceRules stored (unconditional msg) rules fields =
      FieldRules.enforceRules stored msg rules fields := by
  have same (spec : Option Str) :
      FieldRules.allows spec (unconditional msg) = FieldRules.allows spec msg := by
    cases spec <;> rfl
  induction rules generalizing fields with
  | nil => rfl
  | cons rule rules ih =>
    unfold FieldRules.enforceRules FieldRules.FieldRule.readable FieldRules.FieldRule.writable
    rw [same rule.read, same rule.write, ih, ih]

theorem admitWrite_unconditional (schema : Option Value) (stored value : Value) :
    service.admitWrite host (unconditional msg) dataset schema stored value =
      service.admitWrite host msg dataset schema stored value := by
  have same (schema : Value) :
      service.enforce (unconditional msg) schema stored value =
        service.enforce msg schema stored value := by
    unfold enforce FieldRules.enforceWriteRules
    simp only [enforceRules_unconditional]
  unfold admitWrite
  simp only [same]

theorem upsert_ok_iff :
    (∃ result, service.upsert host store msg dataset key = .ok result) ↔
      checkUpsert host (getOrNull store dataset key) (writePrecondition msg) = .ok () ∧
        ∃ result, service.upsert host store (unconditional msg) dataset key = .ok result := by
  unfold upsert
  simp only [writePrecondition_unconditional, admitWrite_unconditional, bind_eq_ok, pure_eq_ok]
  constructor
  · rintro ⟨_, done, checked, value, read, final, admitted, -⟩
    exact ⟨checked, _, (), rfl, value, read, final, admitted, rfl⟩
  · rintro ⟨checked, _, done, -, value, read, final, admitted, -⟩
    exact ⟨_, (), checked, value, read, final, admitted, rfl⟩

theorem patch_ok_iff :
    (∃ result, service.patch host store msg dataset key = .ok result) ↔
      ∃ result, service.patch host store (unconditional msg) dataset key = .ok result := by
  unfold patch
  simp only [admitWrite_unconditional, bind_eq_ok, pure_eq_ok]
  constructor
  · rintro ⟨_, change, read, stored, found, final, admitted, -⟩
    exact ⟨_, change, read, stored, found, final, admitted, rfl⟩
  · rintro ⟨_, change, read, stored, found, final, admitted, -⟩
    exact ⟨_, change, read, stored, found, final, admitted, rfl⟩

theorem removeRecord_ok_iff :
    (∃ result, removeRecord host store msg dataset key = .ok result) ↔
      checkDelete host (getOrNull store dataset key) (writePrecondition msg) = .ok () ∧
        ∃ result, removeRecord host store (unconditional msg) dataset key = .ok result := by
  unfold removeRecord
  rw [writePrecondition_unconditional]
  simp only [bind_eq_ok, pure_eq_ok]
  constructor
  · rintro ⟨_, done, checked, remaining, deleted, -⟩
    exact ⟨checked, _, (), rfl, remaining, deleted, rfl⟩
  · rintro ⟨checked, _, done, -, remaining, deleted, -⟩
    exact ⟨_, (), checked, remaining, deleted, rfl⟩

/-! ## What the checks decide -/

section Decisions

variable {record : Value}

theorem preconditionHolds_of_none (missing : record? store dataset key = none) :
    PreconditionHolds service host store msg dataset key ↔ msg.header "if-match" = none := by
  have noTag : service.servedTag host store msg dataset key = none := by
    rw [servedTag_eq, missing]
    rfl
  constructor
  · intro holds
    refine Option.eq_none_iff_forall_ne_some.mpr fun tags asked => ?_
    obtain ⟨tag, served, _⟩ := holds.ifMatch tags asked
    rw [noTag] at served
    cases served
  · intro unasked
    refine ⟨fun tags asked => ?_, fun tags _ tag served => ?_⟩
    · rw [unasked] at asked
      cases asked
    · rw [noTag] at served
      cases served

theorem preconditionHolds_of_some (found : record? store dataset key = some record) :
    PreconditionHolds service host store msg dataset key ↔
      (msg.header "if-match" = none ∨ Names host msg "if-match" record) ∧
        ¬ Names host msg "if-none-match" record := by
  have isTag : service.servedTag host store msg dataset key = some (recordEtag host record) := by
    rw [servedTag_eq, found]
    rfl
  constructor
  · intro holds
    constructor
    · cases asked : msg.header "if-match" with
      | none => exact .inl rfl
      | some tags =>
        obtain ⟨tag, served, hits⟩ := holds.ifMatch tags asked
        rw [isTag] at served
        cases served
        exact .inr ⟨tags, asked, hits⟩
    · rintro ⟨tags, asked, hits⟩
      exact holds.ifNoneMatch tags asked _ isTag hits
  · rintro ⟨wanted, spared⟩
    refine ⟨fun tags asked => ⟨_, isTag, ?_⟩, fun tags asked tag served => ?_⟩
    · rcases wanted with unasked | ⟨other, sameHeader, hits⟩
      · rw [unasked] at asked
        cases asked
      · rw [asked] at sameHeader
        cases sameHeader
        exact hits
    · rw [isTag] at served
      cases served
      exact fun hits => spared ⟨tags, asked, hits⟩

theorem names_of_want {want : Str} (asked : msg.header "if-match" = some want) :
    Names host msg "if-match" record ↔ ifMatchHits want (recordEtag host record) = true := by
  unfold Names
  rw [asked, ifMatchHits_iff_listed]
  simp

theorem names_of_star {tags : Str} (asked : msg.header "if-none-match" = some tags)
    (star : ∀ tag, Listed tags tag) : Names host msg "if-none-match" record :=
  ⟨tags, asked, star _⟩

/-- What a check of an upsert decides about a missing record. -/
theorem checkUpsert_missing :
    (checkUpsert host .null (writePrecondition msg) = .ok () ↔ msg.header "if-match" = none) ↔
      ChecksStored host msg none := by
  unfold ChecksStored
  rcases @writePrecondition_cases msg with ⟨star, _⟩ | ⟨free, unasked⟩ | ⟨want, matching, asked⟩
  · simp [star, checkUpsert]
  · rw [free, unasked]
    simp [checkUpsert]
  · rw [matching, asked]
    simp [checkUpsert]

/-- What a check of an upsert decides about a stored record. -/
theorem checkUpsert_stored (upserts : msg.method = .put ∨ msg.method = .post) :
    (checkUpsert host record (writePrecondition msg) = .ok () ↔
      (msg.header "if-match" = none ∨ Names host msg "if-match" record) ∧
        ¬ Names host msg "if-none-match" record) ↔ ChecksStored host msg (some record) := by
  have decides : ChecksStored host msg (some record) ↔
      (writePrecondition msg = .none → ¬ Names host msg "if-none-match" record) ∧
      (writePrecondition msg = .ifNoneMatchStar → record ≠ .null) ∧
      ∀ want, writePrecondition msg = .ifMatch want → Names host msg "if-match" record →
        (record = .null ↔ Names host msg "if-none-match" record) := by
    unfold ChecksStored
    rcases upserts with put | post
    · rw [put]
      cases writePrecondition msg <;> simp
    · rw [post]
      cases writePrecondition msg <;> simp
  rw [decides]
  rcases @writePrecondition_cases msg with
    ⟨star, tags, tagged, all⟩ | ⟨free, unasked⟩ | ⟨want, matching, asked⟩
  · have named : Names host msg "if-none-match" record := names_of_star tagged all
    rw [star, eq_true named]
    simp [checkUpsert]
  · rw [free, unasked]
    generalize Names host msg "if-none-match" record = named
    simp [checkUpsert]
  · rw [matching, asked, names_of_want asked]
    generalize Names host msg "if-none-match" record = named
    by_cases null : record = .null
    · simp [checkUpsert, null]
    · simp [checkUpsert, null]

/-- What a check of a delete decides about a stored record. -/
theorem checkDelete_stored (deletes : msg.method = .delete) :
    (checkDelete host record (writePrecondition msg) = .ok () ↔
      (msg.header "if-match" = none ∨ Names host msg "if-match" record) ∧
        ¬ Names host msg "if-none-match" record) ↔ ChecksStored host msg (some record) := by
  unfold ChecksStored
  rw [deletes]
  rcases @writePrecondition_cases msg with
    ⟨star, tags, tagged, all⟩ | ⟨free, unasked⟩ | ⟨want, matching, asked⟩
  · have named : Names host msg "if-none-match" record := names_of_star tagged all
    rw [star, eq_true named]
    simp [checkDelete]
  · rw [free, unasked]
    dsimp only
    generalize Names host msg "if-none-match" record = named
    simp [checkDelete]
  · rw [matching, asked]
    dsimp only
    rw [names_of_want asked]
    generalize Names host msg "if-none-match" record = named
    simp [checkDelete]
    tauto

end Decisions

/-- A write of a record that would succeed without conditional headers succeeds with them exactly
under their precondition, if and only if its checks decide on the record as it is stored. -/
theorem conditional_writes_decide_iff
    (write : msg.method = .put ∨ msg.method = .post ∨ msg.method = .patch ∨ msg.method = .delete)
    (accepted : ∃ result,
      service.handleRecord host store (unconditional msg) dataset key = .ok result) :
    ((∃ result, service.handleRecord host store msg dataset key = .ok result) ↔
      PreconditionHolds service host store msg dataset key) ↔
        ChecksStored host msg (record? store dataset key) := by
  have upserts (put : msg.method = .put ∨ msg.method = .post)
      (stores : ∃ result, service.upsert host store (unconditional msg) dataset key = .ok result) :
      ((∃ result, service.upsert host store msg dataset key = .ok result) ↔
        PreconditionHolds service host store msg dataset key) ↔
          ChecksStored host msg (record? store dataset key) := by
    rw [upsert_ok_iff, and_iff_left stores, getOrNull]
    cases found : record? store dataset key with
    | none => rw [preconditionHolds_of_none found, Option.getD_none, checkUpsert_missing]
    | some record => rw [preconditionHolds_of_some found, Option.getD_some, checkUpsert_stored put]
  unfold handleRecord at accepted ⊢
  rw [show (unconditional msg).method = msg.method from rfl] at accepted
  rcases write with put | post | patches | deletes
  · rw [put] at accepted ⊢
    exact upserts (.inl put) accepted
  · rw [post] at accepted ⊢
    exact upserts (.inr post) accepted
  · rw [patches] at accepted ⊢
    dsimp only at accepted ⊢
    rw [patch_ok_iff, eq_true accepted, true_iff]
    cases found : record? store dataset key with
    | none =>
      obtain ⟨_, patched⟩ := accepted
      simp only [patch, bind_eq_ok, MemData.get, found] at patched
      obtain ⟨_, _, _, missing, _⟩ := patched
      cases missing
    | some record =>
      rw [preconditionHolds_of_some found, ChecksStored, patches]
  · rw [deletes] at accepted ⊢
    dsimp only at accepted ⊢
    rw [removeRecord_ok_iff, and_iff_left accepted, getOrNull]
    cases found : record? store dataset key with
    | none =>
      obtain ⟨_, removed⟩ := accepted
      simp only [removeRecord, bind_eq_ok] at removed
      obtain ⟨_, _, remaining, deleted, _⟩ := removed
      unfold record? at found
      unfold MemData.delete at deleted
      cases held : OrderedMap.get? store dataset with
      | none =>
        rw [held] at deleted
        cases deleted
      | some records =>
        rw [held] at found deleted
        rw [Option.bind_some] at found
        simp only [found] at deleted
        cases deleted
    | some record =>
      rw [preconditionHolds_of_some found, Option.getD_some, checkDelete_stored deletes]

/-- A mount without schemas or field rules. -/
def plainService : DataService where
  enforceSchema := false
  fieldAuthz := false

/-- A stored record without members. -/
def emptyRecord : Store :=
  [("people", ⟨[("ann", .object [])], none⟩)]

/-- A PUT of an empty object under a conditional header. -/
def conditionalPut (header tags : Str) : Message :=
  { Message.request .put "/people/ann" "acme" "trace" with
    headers := [(header, tags)]
    body := some (Body.fromJson Tagged.codec (.object [])) }

theorem put_of_known_record_decides :
    ((∃ result, plainService.handleRecord .plain emptyRecord (conditionalPut "if-match" "*") "people"
        "ann" = .ok result) ↔
      PreconditionHolds plainService .plain emptyRecord (conditionalPut "if-match" "*") "people" "ann") ↔
        ChecksStored .plain (conditionalPut "if-match" "*") (record? emptyRecord "people" "ann") :=
  conditional_writes_decide_iff (.inl rfl) ⟨_, rfl⟩

/-- The record is null, so a create-only PUT finds none and replaces it. -/
theorem create_only_replaces_null :
    (∃ result, plainService.handleRecord .plain [("people", ⟨[("ann", .null)], none⟩)]
        (conditionalPut "if-none-match" "*") "people" "ann" = .ok result) ∧
      ¬ PreconditionHolds plainService .plain [("people", ⟨[("ann", .null)], none⟩)]
        (conditionalPut "if-none-match" "*") "people" "ann" := by
  refine ⟨⟨_, rfl⟩, fun holds => ?_⟩
  have spared := holds.ifNoneMatch "*" (by decide +kernel) _ servedTag_eq
  exact spared ⟨"*", by decide +kernel, .inl (by decide +kernel)⟩

end Rs2Runtime.Services.DataService
