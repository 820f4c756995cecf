import Rs2Runtime.Message.MediaType
import Rs2Runtime.Message.Stream

/-!
Contract: recording a response for replay, and rebuilding it.

Owns:
- the stored form of a response, its capture within a cap and the rebuilt message;
- what the first caller still gets of a response that was captured;
- which responses are replayed as they were.
-/

namespace Rs2Runtime.HeaderMap

open Text

/-! ## Setting header lines -/

theorem nodup_set {headers : HeaderMap} (distinct : (headers.map Prod.fst).Nodup)
    (name value : Str) : ((headers.set name value).map Prod.fst).Nodup := by
  rw [set, List.map_append, List.nodup_append]
  refine ⟨distinct.sublist (List.filter_sublist.map _), List.nodup_singleton _, ?_⟩
  intro other member own isOwn same
  obtain ⟨line, kept, rfl⟩ := List.mem_map.mp member
  rw [List.map_singleton, List.mem_singleton] at isOwn
  have differs := (List.mem_filter.mp kept).2
  rw [same, isOwn] at differs
  simp at differs

theorem length_set (headers : HeaderMap) (name value : Str) :
    (headers.set name value).length ≤ headers.length + 1 := by
  rw [set, List.length_append, List.length_singleton]
  exact Nat.add_le_add_right (List.length_filter_le _ _) 1

theorem set_of_absent {headers : HeaderMap} {name : Str} (absent : name ∉ headers.map Prod.fst)
    (value : Str) : headers.set name value = headers ++ [(name, value)] := by
  rw [set, List.filter_eq_self.mpr]
  intro line member
  simp only [ne_eq, decide_not, Bool.not_eq_true', decide_eq_false_iff_not]
  rintro rfl
  exact absent (List.mem_map_of_mem member)

/-- Set one line after the other. -/
def setAll (headers : HeaderMap) (lines : List (Str × Str)) : HeaderMap :=
  lines.foldl (fun headers line => headers.set line.1 line.2) headers

theorem nodup_setAll {headers : HeaderMap} (distinct : (headers.map Prod.fst).Nodup)
    (lines : List (Str × Str)) : ((headers.setAll lines).map Prod.fst).Nodup := by
  induction lines generalizing headers with
  | nil => exact distinct
  | cons line lines ih =>
    exact ih (nodup_set distinct line.1 line.2)

theorem length_setAll (headers : HeaderMap) (lines : List (Str × Str)) :
    (headers.setAll lines).length ≤ headers.length + lines.length := by
  induction lines generalizing headers with
  | nil => exact Nat.le_refl _
  | cons line lines ih =>
    have rest := ih (headers.set line.1 line.2)
    have first := length_set headers line.1 line.2
    rw [setAll, List.foldl_cons, List.length_cons]
    rw [setAll] at rest
    omega

/-- Lines under distinct new names are all kept. -/
theorem setAll_of_distinct {headers : HeaderMap} {lines : List (Str × Str)}
    (distinct : ((headers ++ lines).map Prod.fst).Nodup) :
    headers.setAll lines = headers ++ lines := by
  induction lines generalizing headers with
  | nil => exact (List.append_nil _).symm
  | cons line lines ih =>
    have absent : line.1 ∉ headers.map Prod.fst := by
      rw [List.map_append, List.nodup_append] at distinct
      intro member
      exact distinct.2.2 _ member _ (List.mem_map_of_mem List.mem_cons_self) rfl
    have shape : headers ++ line :: lines = headers ++ [line] ++ lines := by
      rw [List.append_assoc, List.singleton_append]
    rw [shape] at distinct ⊢
    rw [setAll, List.foldl_cons, set_of_absent absent]
    exact ih distinct

end Rs2Runtime.HeaderMap

namespace Rs2Runtime.Idempotency

open Text Data Data.Outcome Json

/-! ## Stored responses -/

/-- Larger bodies are not replayed. -/
def defaultBodyCap : Nat :=
  1024 * 1024

/-- A recorded response; the body with its media type in wire form. -/
structure StoredResponse where
  status : Nat
  headers : List (Str × Str)
  body : Option (Octets × Str)
  deriving DecidableEq

/-- Put a recorded header line back; a later line of a name replaces the earlier ones. -/
def restoreLine (headers : HeaderMap) (line : Str × Str) : HeaderMap :=
  match headerName line.1 with
  | some name => if isHeaderValue line.2 then headers.set name line.2 else headers
  | none => headers

/-- Rebuild a response in the context of the duplicate request. -/
def StoredResponse.intoMessage (stored : StoredResponse) (template : Message) : Message :=
  let status := if 100 ≤ stored.status ∧ stored.status < 1000 then stored.status else 500
  let body := stored.body.map fun body => Body.fromBytes body.1 (MediaType.parse body.2)
  let resp := template.response status body
  { resp with headers := stored.headers.foldl restoreLine resp.headers }.setHeader
    "idempotency-replayed" "true"

/-- The header lines that can be recorded. -/
def recordedHeaders (resp : Message) : List (Str × Str) :=
  resp.headers.filter fun line => isVisibleAscii line.2

/-- Capture a response, reading its body up to the cap: the response as it is afterwards, and
the stored form unless the body could not be read. -/
def captureResponse (resp : Message) (bodyCap : Nat) : Message × Option StoredResponse :=
  match resp.body with
  | none => (resp, some ⟨resp.status.getD 200, recordedHeaders resp, none⟩)
  | some body =>
    match body.drain bodyCap with
    | (.ok octets, left) =>
      ({ resp with body := some left },
        some ⟨resp.status.getD 200, recordedHeaders resp,
          some (octets, body.mediaType.display)⟩)
    | (.error _, left) => ({ resp with body := some left }, none)

/-- What becomes of the entry of a request that executed. -/
inductive Settlement where
  | complete (response : StoredResponse)
  | abandon
  deriving DecidableEq

/-- After the service was invoked for a fresh key: the result of the request, and what becomes
of its entry. -/
def settleFresh (invoked : Except RsError Message) : Except RsError Message × Settlement :=
  match invoked with
  | .ok resp =>
    match captureResponse resp defaultBodyCap with
    | (resp, some stored) => (.ok resp, .complete stored)
    | (resp, none) => (.ok resp, .abandon)
  | .error failure => (.error failure, .abandon)

/-! ## The first caller -/

/-- The body of the captured response is the body as reading left it. -/
theorem captureResponse_body (resp : Message) (bodyCap : Nat) :
    (captureResponse resp bodyCap).1.body =
      resp.body.map fun body => (body.drain bodyCap).2 := by
  unfold captureResponse
  split
  next absent => rw [absent]; rfl
  next body isBody =>
    rw [isBody]
    split <;>
      · rename_i drained
        rw [Option.map_some, drained]

theorem settleFresh_result (resp : Message) :
    (settleFresh (.ok resp)).1 = .ok (captureResponse resp defaultBodyCap).1 := by
  unfold settleFresh
  dsimp only
  split <;>
    · rename_i captured
      rw [captured]

/-- The first caller gets a response, with the items the service produced exactly if the body,
where there is one, is in memory, is refused by its declared size, or is read to its end within
the cap. -/
theorem first_caller_gets_items_iff (resp : Message) :
    ∃ returned, (settleFresh (.ok resp)).1 = .ok returned ∧
      (returned.body.map Body.items = resp.body.map Body.items ↔
        ∀ body, resp.body = some body → body.LeavesItems defaultBodyCap) := by
  refine ⟨_, settleFresh_result resp, ?_⟩
  rw [captureResponse_body]
  cases resp.body with
  | none =>
    refine iff_of_true rfl fun body none_ => ?_
    cases none_
  | some body =>
    rw [Option.map_some, Option.map_some, Option.map_some, Option.some_inj,
      Body.items_drain_iff]
    constructor
    · rintro leaves other same
      cases same
      exact leaves
    · intro leaves
      exact leaves body rfl

example :
    ((Body.mk (.stream [.ok [1, 2, 3], .ok [4, 5], .ok [6]]) .json none).drain 4).2.items =
      [.ok 6] := by
  decide

/-- A streamed response of unknown size, one octet over the cap. -/
def overCap : Message :=
  (Message.request .post "/p" "t" "trace").response 200
    (some ⟨.stream [.ok (List.replicate (defaultBodyCap + 1) 0)], .json, none⟩)

/-- The first caller does not get the body that is too large to be recorded. -/
theorem large_stream_is_lost :
    ∃ returned, (settleFresh (.ok overCap)).1 = .ok returned ∧
      returned.body.map Body.items ≠ overCap.body.map Body.items := by
  refine ⟨_, settleFresh_result overCap, fun same => ?_⟩
  rw [captureResponse_body] at same
  have leaves := (Body.items_drain_iff _ _).mp (Option.some.inj same)
  rcases leaves with inMemory | ⟨size, declared, -⟩ | ⟨octets, streamed, fits⟩
  · cases inMemory
  · cases declared
  · cases streamed
    rw [List.length_append, List.length_replicate] at fits
    omega

/-! ## Replayed headers -/

theorem isHeaderValue_of_visible {value : Str} (visible : isVisibleAscii value = true) :
    isHeaderValue value = true := by
  unfold isVisibleAscii at visible
  unfold isHeaderValue
  rw [List.all_eq_true] at visible ⊢
  intro c member
  have ascii := visible c member
  simp only [Bool.or_eq_true, Bool.and_eq_true, decide_eq_true_eq] at ascii ⊢
  exact ascii.imp id fun range => ⟨range.1, Nat.ne_of_lt range.2⟩

/-- Recorded lines are put back one by one. -/
theorem foldl_restoreLine {lines : List (Str × Str)}
    (names : ∀ line ∈ lines, headerName line.1 = some line.1)
    (visible : ∀ line ∈ lines, isVisibleAscii line.2 = true) (headers : HeaderMap) :
    lines.foldl restoreLine headers = headers.setAll lines := by
  refine List.foldl_ext _ _ _ fun headers line member => ?_
  rw [restoreLine, names line member]
  exact if_pos (isHeaderValue_of_visible (visible line member))

/-- The marker of a replayed response. -/
def replayedLine : Str × Str :=
  ("idempotency-replayed", "true")

theorem intoMessage_headers (stored : StoredResponse) (template : Message) :
    (stored.intoMessage template).headers =
      HeaderMap.set (stored.headers.foldl restoreLine []) replayedLine.1 replayedLine.2 := by
  unfold StoredResponse.intoMessage
  rw [Message.setHeader, if_pos (by decide)]
  rfl

theorem intoMessage_body (stored : StoredResponse) (template : Message) :
    (stored.intoMessage template).body =
      stored.body.map fun body => Body.fromBytes body.1 (MediaType.parse body.2) := by
  unfold StoredResponse.intoMessage
  rw [Message.setHeader, if_pos (by decide)]
  rfl

theorem intoMessage_status (stored : StoredResponse) (template : Message) :
    (stored.intoMessage template).status =
      some (if 100 ≤ stored.status ∧ stored.status < 1000 then stored.status else 500) := by
  unfold StoredResponse.intoMessage
  rw [Message.setHeader, if_pos (by decide)]
  rfl

/-! ## Faithful replays -/

/-- What the types of the code guarantee of a response: header names in their canonical form,
and a status code of three digits. -/
structure Representable (resp : Message) : Prop where
  names : ∀ line ∈ resp.headers, headerName line.1 = some line.1
  status : ∀ status, resp.status = some status → 100 ≤ status ∧ status < 1000

/-- The replayed response is the recorded one, with the marker. A response without a status is
sent with 200. -/
structure Faithful (resp replayed : Message) : Prop where
  status : replayed.status = some (resp.status.getD 200)
  headers : replayed.headers.Perm (resp.headers ++ [replayedLine])
  body : replayed.body.map Body.content = resp.body.map Body.content

/-- Nothing of a response is lost on the way through the store. -/
structure Replayable (resp : Message) : Prop where
  distinct : (resp.headers.map Prod.fst).Nodup
  visible : ∀ line ∈ resp.headers, isVisibleAscii line.2 = true
  unmarked : replayedLine.1 ∉ resp.headers.map Prod.fst
  mediaType : ∀ body, resp.body = some body → body.mediaType.PrintsBack

/-- What was recorded of a response. -/
structure RecordOf (resp : Message) (stored : StoredResponse) : Prop where
  status : stored.status = resp.status.getD 200
  headers : stored.headers = recordedHeaders resp
  body : ∀ body, resp.body = some body → ∃ octets, body.streamed = .ok octets ∧
    stored.body = some (octets, body.mediaType.display)
  empty : resp.body = none → stored.body = none

theorem recordOf_capture {resp : Message} {bodyCap : Nat} {stored : StoredResponse}
    (recorded : (captureResponse resp bodyCap).2 = some stored) : RecordOf resp stored := by
  unfold captureResponse at recorded
  split at recorded
  next absent =>
    cases recorded
    refine ⟨rfl, rfl, fun body isBody => ?_, fun _ => rfl⟩
    rw [absent] at isBody
    cases isBody
  next body isBody =>
    split at recorded
    next octets left drained =>
      cases recorded
      refine ⟨rfl, rfl, fun other isOther => ?_, fun absent => ?_⟩
      · rw [isBody] at isOther
        cases isOther
        have read : (body.drain bodyCap).1 = .ok octets := by rw [drained]
        exact ⟨octets, Body.streamed_of_drain read, rfl⟩
      · rw [isBody] at absent
        cases absent
    next => cases recorded

section Replay

variable {resp : Message} {stored : StoredResponse} (record : RecordOf resp stored)
include record

theorem RecordOf.restored_headers (representable : Representable resp) (template : Message) :
    (stored.intoMessage template).headers =
      (HeaderMap.setAll [] (recordedHeaders resp)).set replayedLine.1 replayedLine.2 := by
  rw [intoMessage_headers, record.headers, foldl_restoreLine]
  · intro line member
    exact representable.names line (List.mem_filter.mp member).1
  · intro line member
    exact (List.mem_filter.mp member).2

/-- All header lines come back exactly if none is hidden, repeated or the marker. -/
theorem RecordOf.headers_perm_iff (representable : Representable resp) (template : Message) :
    (stored.intoMessage template).headers.Perm (resp.headers ++ [replayedLine]) ↔
      (resp.headers.map Prod.fst).Nodup ∧
        (∀ line ∈ resp.headers, isVisibleAscii line.2 = true) ∧
        replayedLine.1 ∉ resp.headers.map Prod.fst := by
  rw [record.restored_headers representable]
  constructor
  · intro perm
    have empty : (([] : HeaderMap).map Prod.fst).Nodup := List.nodup_nil
    have distinct : ((resp.headers ++ [replayedLine]).map Prod.fst).Nodup :=
      (perm.map Prod.fst).nodup_iff.mp
        (HeaderMap.nodup_set (HeaderMap.nodup_setAll empty _) _ _)
    rw [List.map_append, List.nodup_append] at distinct
    refine ⟨distinct.1, ?_, fun member => ?_⟩
    · -- a hidden line would be missing from the count
      have first := HeaderMap.length_setAll [] (recordedHeaders resp)
      have second := HeaderMap.length_set (HeaderMap.setAll [] (recordedHeaders resp))
        replayedLine.1 replayedLine.2
      have total := perm.length_eq
      rw [List.length_append, List.length_singleton] at total
      rw [List.length_nil] at first
      exact List.length_filter_eq_length_iff.mp
        (Nat.le_antisymm (List.length_filter_le _ _) (by unfold recordedHeaders at *; omega))
    · exact distinct.2.2 _ member _ List.mem_cons_self rfl
  · rintro ⟨distinct, visible, unmarked⟩
    have all : recordedHeaders resp = resp.headers := List.filter_eq_self.mpr visible
    have kept : HeaderMap.setAll [] resp.headers = resp.headers :=
      HeaderMap.setAll_of_distinct distinct
    rw [all, kept, HeaderMap.set_of_absent unmarked]

/-- The body comes back exactly if its media type is read back. -/
theorem RecordOf.content_iff (template : Message) :
    (stored.intoMessage template).body.map Body.content = resp.body.map Body.content ↔
      ∀ body, resp.body = some body → body.mediaType.PrintsBack := by
  rw [intoMessage_body]
  cases isBody : resp.body with
  | none =>
    rw [record.empty isBody]
    exact iff_of_true rfl nofun
  | some body =>
    obtain ⟨octets, streamed, isStored⟩ := record.body body isBody
    have reads : Body.content (Body.fromBytes octets (MediaType.parse body.mediaType.display)) =
        body.content ↔ body.mediaType.PrintsBack := by
      rw [← MediaType.parse_display_iff, Body.content, Body.content, streamed, Prod.mk.injEq]
      exact and_iff_right rfl
    rw [isStored, Option.map_some, Option.map_some, Option.map_some, Option.some_inj, reads]
    constructor
    · rintro printsBack other same
      cases same
      exact printsBack
    · intro printsBack
      exact printsBack body rfl

theorem RecordOf.restored_status (representable : Representable resp) (template : Message) :
    (stored.intoMessage template).status = some (resp.status.getD 200) := by
  rw [intoMessage_status, record.status, if_pos]
  cases isStatus : resp.status with
  | none => decide
  | some status => exact representable.status status isStatus

end Replay

/-- Every response that is recorded, under any cap, and rebuilt for any later request is the
response that was recorded exactly if nothing of it is lost on the way. -/
theorem replay_is_faithful_iff (resp template : Message) (representable : Representable resp)
    (bodyCap : Nat) (stored : StoredResponse)
    (recorded : (captureResponse resp bodyCap).2 = some stored) :
    Faithful resp (stored.intoMessage template) ↔ Replayable resp := by
  have record := recordOf_capture recorded
  have headers := record.headers_perm_iff representable template
  have content := record.content_iff template
  constructor
  · intro faithful
    obtain ⟨distinct, visible, unmarked⟩ := headers.mp faithful.headers
    exact ⟨distinct, visible, unmarked, content.mp faithful.body⟩
  · intro replayable
    exact ⟨record.restored_status representable template,
      headers.mpr ⟨replayable.distinct, replayable.visible, replayable.unmarked⟩,
      content.mpr replayable.mediaType⟩

/-- A response with one header line and a typed body. -/
def taggedResponse : Message :=
  { (Message.request .post "/p" "t" "trace").response 201 (some (Body.fromBytes [123, 125] .json)) with
    headers := [("etag", "1")] }

theorem replayable_taggedResponse : Replayable taggedResponse where
  distinct := by decide
  visible := by decide
  unmarked := by decide
  mediaType := by
    rintro body isBody
    cases isBody
    exact ⟨by decide, by decide, nofun⟩

theorem tagged_response_replays :
    ∃ stored, (captureResponse taggedResponse defaultBodyCap).2 = some stored ∧
      Faithful taggedResponse (stored.intoMessage taggedResponse) := by
  have recorded : (captureResponse taggedResponse defaultBodyCap).2 =
      some ⟨201, [("etag", "1")], some ([123, 125], "application/json")⟩ := by decide +kernel
  refine ⟨_, recorded, ?_⟩
  refine (replay_is_faithful_iff taggedResponse taggedResponse ⟨by decide, ?_⟩ defaultBodyCap _
    recorded).mpr replayable_taggedResponse
  intro status isStatus
  cases isStatus
  decide

/-- Two cookies, and a text type made with a parameter in its essence. -/
def cookiesResponse : Message :=
  { (Message.request .post "/p" "t" "trace").response 200
      (some (Body.fromBytes [104] (.new "text/plain; charset=utf-8"))) with
    headers := [("set-cookie", "a=1"), ("set-cookie", "b=2")] }

/-- A replay loses the first cookie and the parameter of the media type. -/
theorem replay_loses_cookie_and_charset :
    ∃ stored, (captureResponse cookiesResponse defaultBodyCap).2 = some stored ∧
      (stored.intoMessage cookiesResponse).headers =
        ([("set-cookie", "b=2"), replayedLine] : List (Str × Str)) ∧
      (stored.intoMessage cookiesResponse).body =
        some (Body.fromBytes [104] ⟨"text/plain", none⟩) ∧
      ¬ Faithful cookiesResponse (stored.intoMessage cookiesResponse) := by
  have recorded : (captureResponse cookiesResponse defaultBodyCap).2 =
      some ⟨200, [("set-cookie", "a=1"), ("set-cookie", "b=2")],
        some ([104], "text/plain; charset=utf-8")⟩ := by decide +kernel
  refine ⟨_, recorded, by decide +kernel, by decide +kernel, fun faithful => ?_⟩
  have perm := faithful.headers.length_eq
  revert perm
  decide +kernel

end Rs2Runtime.Idempotency
