import Rs2Runtime.Pipeline.Call

/-!
Contract: what the steps of a pipeline see of a body that is not JSON.

Owns:
- the one conversion behind transforms, captures and joins, seen from each of them;
- the mark at the front of a text, and that its encoding is taken off by octets;
- when a binary body is seen as the base64 form of all of its octets.

Does not own: JSON bodies, or bodies above the limit.
-/

namespace Rs2Runtime.Pipeline

open Text Data Json

/-! ## The byte-order mark -/

/-- The octets of a byte-order mark. -/
def byteOrderMark : Octets := [0xEF, 0xBB, 0xBF]

/-- A text without one leading byte-order mark. -/
def withoutMark : Str → Str
  | [] => []
  | first :: rest => if first = '\ufeff' then rest else first :: rest

theorem stripBom_append (octets : Octets) : Body.stripBom (byteOrderMark ++ octets) = octets := rfl

theorem stripBom_of_not_marked {octets : Octets} (unmarked : ¬ byteOrderMark <+: octets) :
    Body.stripBom octets = octets := by
  unfold Body.stripBom
  split
  next rest => exact absurd (List.prefix_append byteOrderMark rest) unmarked
  next => rfl

/-- Only a text with a mark in front has the octets of a mark in front. -/
theorem head_of_marked {first : Char} {rest : Str} (marked : byteOrderMark <+: utf8 (first :: rest)) :
    first = '\ufeff' := by
  obtain ⟨lead, tail, encoded, decoded⟩ := decodeNext_encodeChar first (utf8 rest)
  obtain ⟨behind, starts⟩ := marked
  have whole : utf8 (first :: rest) = lead :: (tail ++ utf8 rest) := by
    rw [utf8, List.flatMap_cons, encoded]
    rfl
  rw [whole] at starts
  obtain ⟨sameLead, sameTail⟩ := List.cons.inj starts
  rw [← sameLead, ← sameTail] at decoded
  have mark : decodeNext (0xEF : UInt8).toNat (0xBB :: 0xBF :: behind) =
      (some '\ufeff', behind) := rfl
  exact (Option.some.inj ((congrArg Prod.fst mark).symm.trans (congrArg Prod.fst decoded))).symm

theorem stripBom_utf8 (text : Str) : Body.stripBom (utf8 text) = utf8 (withoutMark text) := by
  cases text with
  | nil => rfl
  | cons first rest =>
    rw [withoutMark]
    by_cases isMark : first = '\ufeff'
    · rw [if_pos isMark, isMark]
      exact stripBom_append (utf8 rest)
    · rw [if_neg isMark]
      exact stripBom_of_not_marked fun marked => isMark (head_of_marked marked)

/-- The base64 form shows every group of three octets. -/
theorem base64_ne_of_group (a b c : UInt8) (rest : Octets) :
    base64 (a :: b :: c :: rest) ≠ base64 rest := by
  intro same
  have lengths := congrArg List.length same
  rw [base64, List.length_append, List.length_cons] at lengths
  omega

/-! ## What steps see -/

section Seen

variable (executor : Executor) (world : World)

/-- A transform sees the message's body as this value, and so does a capture or a join of it where
the message is no failure. -/
def SeenAs (msg : Message) (value : Value) : Prop :=
  (∃ after, transformInput executor world msg = .ok (value, after)) ∧
    (msg.isOk = true → resultValue executor world msg = .ok value)

variable {executor world} {msg : Message} {body : Body}

theorem seenAs_iff {seen value : Value} {read : Body} (hasBody : msg.body = some body)
    (converted : body.asAny world.codec executor.limits.materializeCap = .ok (seen, read)) :
    SeenAs executor world msg value ↔ seen = value := by
  unfold SeenAs transformInput resultValue
  rw [hasBody]
  dsimp only
  rw [converted]
  constructor
  · rintro ⟨⟨after, same⟩, -⟩
    cases same
    rfl
  · rintro rfl
    exact ⟨⟨_, rfl⟩, fun isOk => if_pos isOk⟩

variable {octets : Octets} {after : Body}

theorem asAny_of_binary {codec : Codec} {maxBytes : Nat}
    (read : body.materialize maxBytes = .ok (octets, after))
    (notJson : body.mediaType.isJson = false) (notText : body.mediaType.isText = false) :
    body.asAny codec maxBytes = .ok (.str (base64 (Body.stripBom octets)), after) := by
  unfold Body.asAny
  rw [read, Except.bind]
  dsimp only
  rw [notJson, notText]
  rfl

theorem asAny_of_text {codec : Codec} {maxBytes : Nat} {text : Str}
    (read : body.materialize maxBytes = .ok (utf8 text, after))
    (notJson : body.mediaType.isJson = false) (isText : body.mediaType.isText = true) :
    body.asAny codec maxBytes = .ok (.str (withoutMark text), after) := by
  unfold Body.asAny
  rw [read, Except.bind]
  dsimp only
  rw [notJson, isText, if_neg (by nofun), if_pos rfl, stripBom_utf8, fromUtf8_utf8]

end Seen

/-- A binary body is seen as the base64 form of its octets, and a text as itself without one
leading mark, exactly if no binary body starts with the octets of a mark. -/
theorem binary_bodies_survive_iff (executor : Executor) (world : World) (msg : Message) (body : Body)
    (octets : Octets) (after : Body) (hasBody : msg.body = some body)
    (read : body.materialize executor.limits.materializeCap = .ok (octets, after)) :
    ((body.mediaType.isJson = false → body.mediaType.isText = false →
        SeenAs executor world msg (.str (base64 octets))) ∧
      (body.mediaType.isJson = false → body.mediaType.isText = true →
        ∀ text, octets = utf8 text → SeenAs executor world msg (.str (withoutMark text)))) ↔
      (body.mediaType.isJson = true ∨ body.mediaType.isText = true ∨ ¬ byteOrderMark <+: octets) := by
  have texts : body.mediaType.isJson = false → body.mediaType.isText = true →
      ∀ text, octets = utf8 text → SeenAs executor world msg (.str (withoutMark text)) := by
    rintro notJson isText text rfl
    exact (seenAs_iff hasBody (asAny_of_text read notJson isText)).mpr rfl
  rw [and_iff_left texts]
  constructor
  · intro survives
    cases json : body.mediaType.isJson with
    | true => exact .inl rfl
    | false =>
      cases isText : body.mediaType.isText with
      | true => exact .inr (.inl rfl)
      | false =>
        refine .inr (.inr ?_)
        rintro ⟨rest, rfl⟩
        have seen := (seenAs_iff hasBody (asAny_of_binary read json isText)).mp
          (survives json isText)
        exact base64_ne_of_group _ _ _ rest (Value.str.inj seen).symm
  · intro condition notJson notText
    rw [notJson, notText] at condition
    have unmarked := (condition.resolve_left nofun).resolve_left nofun
    refine (seenAs_iff hasBody (asAny_of_binary read notJson notText)).mpr ?_
    rw [stripBom_of_not_marked unmarked]

def picture (octets : Octets) : Body :=
  Body.fromBytes octets ⟨"image/png", none⟩

/-- A request with a binary body. -/
def pictureRequest (octets : Octets) : Message :=
  { Message.request .post "/pipelines/p" "acme" "trace" with body := some (picture octets) }

theorem materialize_picture {octets : Octets} {maxBytes : Nat} (fits : octets.length ≤ maxBytes) :
    (picture octets).materialize maxBytes = .ok (octets, picture octets) :=
  if_neg (Nat.not_lt.mpr fits)

theorem picture_is_seen_whole :
    SeenAs (.plain .default) (.answering Tagged.codec fun _ _ msg => msg) (pictureRequest [137, 80])
      (.str (base64 [137, 80])) :=
  ((binary_bodies_survive_iff (.plain .default) (.answering Tagged.codec fun _ _ msg => msg)
    (pictureRequest [137, 80]) (picture [137, 80]) _ _ rfl
    (materialize_picture (by decide))).mpr (.inr (.inr (by decide)))).1 (by decide) (by decide)

/-- A binary body that starts like a mark is seen without its first three octets. -/
theorem marked_picture_is_cut :
    SeenAs (.plain .default) (.answering Tagged.codec fun _ _ msg => msg)
        (pictureRequest (byteOrderMark ++ [65])) (.str (base64 [65])) ∧
      base64 [65] ≠ base64 (byteOrderMark ++ [65]) := by
  have read : (picture (byteOrderMark ++ [65])).materialize
      (Executor.plain .default).limits.materializeCap = .ok (byteOrderMark ++ [65], _) :=
    materialize_picture (by decide)
  exact ⟨(seenAs_iff rfl (asAny_of_binary read (by decide) (by decide))).mpr (by decide), by decide⟩

end Rs2Runtime.Pipeline
