import Rs2Runtime.Data.Outcome
import Rs2Runtime.Message.Basic

/-!
Contract: what reading a stream into memory leaves of it.

Owns:
- the items a payload yields, octet by octet, with its transport errors;
- materialization together with the body it leaves, also where it fails;
- when the body it leaves still yields the same items.
-/

namespace Rs2Runtime

open Text Data Data.Outcome Json

namespace Body

/-! ## Items -/

/-- The items of one chunk. -/
def chunkItems : Except Str Octets → List (Except Str UInt8)
  | .ok octets => octets.map .ok
  | .error message => [.error message]

/-- Everything a payload yields to its reader, in order. -/
def items (body : Body) : List (Except Str UInt8) :=
  match body.payload with
  | .bytes octets => octets.map .ok
  | .stream chunks => chunks.flatMap chunkItems

/-- What a reader gets of a body: its octets, or the transport error, and its media type. -/
def content (body : Body) : Except RsError Octets × MediaType :=
  (body.streamed, body.mediaType)

/-! ## Reading a stream -/

variable {maxBytes : Nat} {buffered octets : Octets} {chunks : List (Except Str Octets)}
  {body : Body}

theorem concat_of_collect (collected : collect maxBytes buffered chunks = .ok octets) :
    ∃ rest, concat chunks = .ok rest ∧ octets = buffered ++ rest := by
  induction chunks generalizing buffered with
  | nil =>
    cases collected
    exact ⟨[], rfl, (List.append_nil _).symm⟩
  | cons chunk chunks ih =>
    cases chunk with
    | error message => cases collected
    | ok chunk =>
      unfold collect at collected
      split at collected
      · cases collected
      · obtain ⟨rest, read, rfl⟩ := ih collected
        refine ⟨chunk ++ rest, ?_, (List.append_assoc _ _ _)⟩
        rw [concat, read]
        rfl

/-- A body that was read has the content it had. -/
theorem content_of_materialize {read : Octets × Body}
    (done : body.materialize maxBytes = .ok read) : read.2.content = body.content := by
  have collected : ∀ chunks, body.payload = .stream chunks →
      (collect maxBytes [] chunks).map (fun octets => (octets, fromBytes octets body.mediaType)) =
        .ok read →
      read.2.content = body.content := by
    intro chunks isStream done
    cases collected : collect maxBytes [] chunks with
    | error failure =>
      rw [collected] at done
      cases done
    | ok octets =>
      rw [collected] at done
      cases done
      obtain ⟨rest, concatenated, rfl⟩ := concat_of_collect collected
      simp only [content, streamed, fromBytes, isStream, concatenated]
  unfold materialize at done
  split at done
  next octets isBytes =>
    split at done
    · cases done
    · cases done
      rfl
  next chunks isStream =>
    split at done
    next =>
      split at done
      · cases done
      · exact collected chunks isStream done
    next => exact collected chunks isStream done

theorem content_of_asAny {codec : Codec} {read : Value × Body}
    (done : body.asAny codec maxBytes = .ok read) : read.2.content = body.content := by
  unfold asAny at done
  cases materialized : body.materialize maxBytes with
  | error failure =>
    rw [materialized] at done
    cases done
  | ok octets =>
    have same := content_of_materialize materialized
    rw [materialized, Except.bind] at done
    dsimp only at done
    split at done
    · obtain ⟨value, -, rfl⟩ := map_eq_ok.mp done
      exact same
    · split at done
      · split at done <;>
          · cases done
            exact same
      · cases done
        exact same

theorem collect_of_concat {rest : Octets} (concatenated : concat chunks = .ok rest)
    (fits : buffered.length + rest.length ≤ maxBytes) :
    collect maxBytes buffered chunks = .ok (buffered ++ rest) := by
  induction chunks generalizing buffered rest with
  | nil =>
    cases concatenated
    rw [collect, List.append_nil]
  | cons chunk chunks ih =>
    cases chunk with
    | error message => cases concatenated
    | ok chunk =>
      obtain ⟨tail, read, rfl⟩ := map_eq_ok.mp concatenated
      rw [List.length_append] at fits
      rw [collect, if_neg (by omega), ← List.append_assoc]
      refine ih read ?_
      rw [List.length_append]
      omega

/-- A successful read is within the cap. -/
theorem length_of_collect (within : buffered.length ≤ maxBytes)
    (collected : collect maxBytes buffered chunks = .ok octets) : octets.length ≤ maxBytes := by
  induction chunks generalizing buffered with
  | nil =>
    cases collected
    exact within
  | cons chunk chunks ih =>
    cases chunk with
    | error message => cases collected
    | ok chunk =>
      unfold collect at collected
      split at collected
      · cases collected
      next fits =>
        refine ih ?_ collected
        rw [List.length_append]
        omega

/-! ## What a failed read leaves -/

/-- The chunks behind the one at which reading into memory fails. -/
def unread (maxBytes : Nat) : Nat → List (Except Str Octets) → List (Except Str Octets)
  | _, [] => []
  | _, .error _ :: chunks => chunks
  | buffered, .ok chunk :: chunks =>
    if maxBytes < buffered + chunk.length then
      chunks
    else
      unread maxBytes (buffered + chunk.length) chunks

/-- Materialization in place: the result, and the body as it is afterwards. A failed read keeps
the stream at the position it reached. -/
def drain (body : Body) (maxBytes : Nat) : Except RsError Octets × Body :=
  match body.payload with
  | .bytes octets =>
    if maxBytes < octets.length then
      (.error (tooLarge octets.length maxBytes), body)
    else
      (.ok octets, body)
  | .stream chunks =>
    match body.size.filter (maxBytes < ·) with
    | some size => (.error (tooLarge size maxBytes), body)
    | none =>
      match collect maxBytes [] chunks with
      | .ok octets => (.ok octets, fromBytes octets body.mediaType)
      | .error failure =>
        (.error failure, { body with payload := .stream (unread maxBytes 0 chunks) })

/-- The result of materialization is that of the reading in place. -/
theorem materialize_eq_drain (body : Body) (maxBytes : Nat) :
    body.materialize maxBytes =
      (body.drain maxBytes).1.map fun octets => (octets, (body.drain maxBytes).2) := by
  unfold materialize drain
  cases body.payload with
  | bytes octets =>
    dsimp only
    split <;> rfl
  | stream chunks =>
    dsimp only
    cases body.size with
    | none => cases collect maxBytes [] chunks <;> rfl
    | some size =>
      by_cases exceeds : maxBytes < size
      · simp only [if_pos exceeds, Option.filter, decide_eq_true exceeds]
        rfl
      · simp only [if_neg exceeds, Option.filter, decide_eq_false exceeds]
        cases collect maxBytes [] chunks <;> rfl

/-- What was read are the octets of the body. -/
theorem streamed_of_drain (read : (body.drain maxBytes).1 = .ok octets) :
    body.streamed = .ok octets := by
  unfold drain at read
  unfold streamed
  cases isPayload : body.payload with
  | bytes held =>
    simp only [isPayload] at read
    split at read
    · cases read
    · exact read
  | stream chunks =>
    simp only [isPayload] at read
    split at read
    · cases read
    · split at read
      next collected =>
        cases read
        obtain ⟨_, concatenated, rfl⟩ := concat_of_collect collected
        exact concatenated
      next => cases read

theorem streamed_of_asJson {codec : Codec} {read : Value × Body}
    (parsed : body.asJson codec maxBytes = .ok read) : ∃ octets, body.streamed = .ok octets := by
  unfold asJson at parsed
  split at parsed
  · cases materialized : body.materialize maxBytes with
    | error e =>
      rw [materialized] at parsed
      cases parsed
    | ok given =>
      rw [materialize_eq_drain] at materialized
      obtain ⟨octets, drained, -⟩ := map_eq_ok.mp materialized
      exact ⟨octets, streamed_of_drain drained⟩
  · cases parsed

/-- What was read is within the cap. -/
theorem length_of_drain (read : (body.drain maxBytes).1 = .ok octets) :
    octets.length ≤ maxBytes := by
  unfold drain at read
  split at read
  · split at read
    · cases read
    · next within =>
        cases read
        exact Nat.not_lt.mp within
  · split at read
    · cases read
    · split at read
      · next collected =>
          cases read
          exact length_of_collect (Nat.zero_le _) collected
      · cases read

/-- Reading leaves all items: the body is in memory, is refused by its declared size, or is read
to its end within the cap. -/
def LeavesItems (body : Body) (maxBytes : Nat) : Prop :=
  body.isStream = false ∨ (∃ size, body.size = some size ∧ maxBytes < size) ∨
    ∃ octets, body.streamed = .ok octets ∧ octets.length ≤ maxBytes

theorem flatMap_chunkItems_of_concat (concatenated : concat chunks = .ok octets) :
    chunks.flatMap chunkItems = octets.map .ok := by
  induction chunks generalizing octets with
  | nil =>
    cases concatenated
    rfl
  | cons chunk chunks ih =>
    cases chunk with
    | error message => cases concatenated
    | ok chunk =>
      obtain ⟨rest, read, rfl⟩ := map_eq_ok.mp concatenated
      rw [List.flatMap_cons, ih read, List.map_append]
      rfl

/-- A failed read has taken an item. -/
theorem length_unread {failure : RsError} (within : buffered.length ≤ maxBytes)
    (failed : collect maxBytes buffered chunks = .error failure) :
    ((unread maxBytes buffered.length chunks).flatMap chunkItems).length <
      (chunks.flatMap chunkItems).length := by
  induction chunks generalizing buffered with
  | nil => cases failed
  | cons chunk chunks ih =>
    cases chunk with
    | error message =>
      rw [unread, List.flatMap_cons, List.length_append]
      exact Nat.lt_add_of_pos_left Nat.one_pos
    | ok chunk =>
      unfold collect at failed
      unfold unread
      rw [List.flatMap_cons, List.length_append, chunkItems, List.length_map]
      split at failed
      next exceeds =>
        rw [if_pos exceeds]
        omega
      next fits =>
        have shorter := ih (by rw [List.length_append]; omega) failed
        rw [List.length_append] at shorter
        rw [if_neg fits]
        omega

/-- A failed read of a stream ran over the cap, or met a transport error. -/
theorem not_fits_of_collect {failure : RsError}
    (failed : collect maxBytes [] chunks = .error failure) :
    ¬ ∃ octets, concat chunks = .ok octets ∧ octets.length ≤ maxBytes := by
  rintro ⟨octets, concatenated, fits⟩
  rw [collect_of_concat concatenated (by simpa using fits)] at failed
  cases failed

/-- Reading a body into memory leaves what its next reader gets, exactly in these cases. -/
theorem items_drain_iff (body : Body) (maxBytes : Nat) :
    (body.drain maxBytes).2.items = body.items ↔ body.LeavesItems maxBytes := by
  cases isPayload : body.payload with
  | bytes octets =>
    have unchanged : (body.drain maxBytes).2 = body := by
      unfold drain
      rw [isPayload]
      dsimp only
      split <;> rfl
    rw [unchanged]
    exact iff_of_true rfl (.inl (by rw [isStream, isPayload]))
  | stream chunks =>
    have isStream : body.isStream = true := by rw [Body.isStream, isPayload]
    have items_eq : body.items = chunks.flatMap chunkItems := by rw [items, isPayload]
    have streamed_eq : body.streamed = concat chunks := by rw [streamed, isPayload]
    unfold LeavesItems drain
    rw [isPayload, isStream, streamed_eq]
    dsimp only
    cases declared : body.size.filter (maxBytes < ·) with
    | some size =>
      obtain ⟨isSize, exceeds⟩ := Option.filter_eq_some_iff.mp declared
      exact iff_of_true rfl (.inr (.inl ⟨size, isSize, of_decide_eq_true exceeds⟩))
    | none =>
      have undeclared : ¬ ∃ size, body.size = some size ∧ maxBytes < size := by
        rintro ⟨size, isSize, exceeds⟩
        rw [isSize, Option.filter_some, if_pos (decide_eq_true exceeds)] at declared
        cases declared
      cases collected : collect maxBytes [] chunks with
      | ok octets =>
        obtain ⟨_, concatenated, rfl⟩ := concat_of_collect collected
        refine iff_of_true ?_
          (.inr (.inr ⟨octets, concatenated, length_of_collect (Nat.zero_le _) collected⟩))
        rw [items_eq, flatMap_chunkItems_of_concat concatenated]
        rfl
      | error failure =>
        refine iff_of_false (fun same => ?_) ?_
        · have shorter := length_unread (Nat.zero_le _) collected
          rw [items_eq] at same
          exact absurd (congrArg List.length same) (Nat.ne_of_lt shorter)
        · rintro (inMemory | declaredLarge | fits)
          · cases inMemory
          · exact undeclared declaredLarge
          · exact not_fits_of_collect collected fits

end Body

end Rs2Runtime
