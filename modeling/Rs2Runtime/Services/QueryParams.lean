import Rs2Runtime.Message.Query
import Rs2Runtime.PathPattern.Basic
import Rs2Runtime.Text.FormEncoding

/-!
Contract: the parameters of a request's query and its three readers.

Owns:
- the parameters of a stored query, coerced to their declared types;
- which pairs, sent as a form, every reader gives back.
-/

namespace Rs2Runtime.Services.QueryParams

open Text Data Json

/-! ## Parameters of a stored query -/

/-- The standard library's reading of a double: nothing for a text that is none, and no number
for an infinity or a NaN. -/
abbrev FloatReader := Str → Option (Option Number)

/-- What a params schema declares of a property. -/
def declared (schema : Option Value) (key : Str) : Option Value :=
  (schema.bind (·.get? "properties")).bind (·.get? key)

/-- The type that a params schema declares for a property. -/
def declaredType (schema : Option Value) (key : Str) : Option Str :=
  ((declared schema key).bind (·.get? "type")).bind Value.asStr

variable (readF64 : FloatReader)

/-- A raw value in its declared type; a text that does not parse stays a string. -/
def coerce (declared : Option Str) (raw : Str) : Value :=
  if declared = some "number" then
    match readF64 raw with
    | some (some number) => .num number
    | some none => .null
    | none => .str raw
  else if declared = some "integer" then
    match parseI64 raw with
    | some number => .num (.int number)
    | none => .str raw
  else if declared = some "boolean" then
    if raw = "true" then .bool true
    else if raw = "false" then .bool false
    else .str raw
  else .str raw

/-- The pieces of a query that hold parameters, as keys and values. -/
def queryPairs (query : Str) : List (Str × Str) :=
  ((query.splitOn '&').filter (· ≠ [])).map MsgUrl.queryPair

/-- Query pairs as params; keys that start with a dollar sign are runtime controls. -/
def urlParams (query : Str) (schema : Option Value) : Object :=
  OrderedMap.ofList <| ((queryPairs query).filter (·.1.head? ≠ some '$')).map fun pair =>
    let key := MsgUrl.decodeQueryValue pair.1
    (key, coerce readF64 (declaredType schema key) (MsgUrl.decodeQueryValue pair.2))

/-- A coerced value is a string only if it is the raw one. -/
theorem coerce_eq_str {declared : Option Str} {raw text : Str} :
    coerce readF64 declared raw = .str text ↔
      raw = text ∧ coerce readF64 declared text = .str text := by
  constructor
  · intro coerced
    have same : raw = text := by
      unfold coerce at coerced
      split_ifs at coerced
      · split at coerced <;> cases coerced
        rfl
      · split at coerced <;> cases coerced
        rfl
      · cases coerced
        rfl
      · cases coerced
        rfl
    subst same
    exact ⟨rfl, coerced⟩
  · rintro ⟨rfl, coerced⟩
    exact coerced

/-! ## Pairs sent as a form -/

/-- A list of pairs as a form sends it. -/
def formText (pairs : List (Str × Str)) : Str :=
  (QueryPairs.queryText (pairs.map fun pair => (formEscape pair.1, formEscape pair.2))).tail

/-- Every reader gives the first value of each key. -/
def ReadsBack (schema : Option Value) (pairs : List (Str × Str)) : Prop :=
  ∀ key value, OrderedMap.get? pairs key = some value →
    (∀ url : MsgUrl, url.query = formText pairs → url.queryParam key = some value) ∧
      PathPattern.queryGet (formText pairs) key = some value ∧
        OrderedMap.get? (urlParams readF64 (formText pairs) schema) key = some (.str value)

/-- Keys are texts that form encoding leaves alone; the first value of a key has no plus sign, is
the last one with spaces for plus signs, and is a string in its declared type. -/
structure Readable (schema : Option Value) (pairs : List (Str × Str)) : Prop where
  keys : ∀ pair ∈ pairs, ∀ c ∈ pair.1, isFormPlain c = true
  values : ∀ key value, OrderedMap.get? pairs key = some value →
    '+' ∉ value ∧ (OrderedMap.get? pairs.reverse key).map (List.map plusToSpace) = some value ∧
      coerce readF64 (declaredType schema key) value = .str value

section Pieces

variable {pairs : List (Str × Str)}

theorem plainPair_formEscape (pair : Str × Str) :
    QueryPairs.PlainPair (formEscape pair.1, formEscape pair.2) where
  keyAmpersand := not_mem_formEscape (by decide) (by decide) (by decide) pair.1
  keyEquals := not_mem_formEscape (by decide) (by decide) (by decide) pair.1
  value := not_mem_formEscape (by decide) (by decide) (by decide) pair.2

theorem pieces_formText (present : pairs ≠ []) :
    ((formText pairs).splitOn '&').map MsgUrl.queryPair =
        pairs.map (fun pair => (formEscape pair.1, formEscape pair.2)) ∧
      ((formText pairs).splitOn '&').filter (· ≠ []) = (formText pairs).splitOn '&' := by
  refine QueryPairs.pieces_queryText (mt List.map_eq_nil_iff.mp present) fun pair member => ?_
  obtain ⟨original, -, rfl⟩ := List.mem_map.mp member
  exact plainPair_formEscape original

theorem decodeQueryValue_formEscape (s : Str) :
    MsgUrl.decodeQueryValue (formEscape s) = s.map plusToSpace := by
  unfold MsgUrl.decodeQueryValue
  rw [percentDecode_formEscape, List.map_map]
  refine List.map_congr_left fun c _ => ?_
  unfold Function.comp spaceToPlus plusToSpace
  by_cases space : c = ' '
  · rw [if_pos space, space]
    rfl
  · rw [if_neg space]

/-- The path pattern's reader finds a key only where it is sent as it is. -/
theorem exists_sent_of_queryGet {key value : Str} (present : pairs ≠ [])
    (found : PathPattern.queryGet (formText pairs) key = some value) :
    ∃ pair ∈ pairs, formEscape pair.1 = key := by
  obtain ⟨pieces, whole⟩ := pieces_formText present
  unfold PathPattern.queryGet at found
  rw [whole, pieces] at found
  obtain ⟨sent, isFound, -⟩ := Option.map_eq_some_iff.mp found
  obtain ⟨pair, member, rfl⟩ := List.mem_map.mp (List.mem_of_find?_eq_some isFound)
  have sent := List.find?_some isFound
  exact ⟨pair, member, of_decide_eq_true sent⟩

/-- If the path pattern's reader finds every key, form encoding leaves all of them alone: the
lightest one it changes would have to be the encoding of a lighter one. -/
theorem plain_of_queryGet
    (found : ∀ pair ∈ pairs, ∃ value, PathPattern.queryGet (formText pairs) pair.1 = some value)
    {pair : Str × Str} (member : pair ∈ pairs) : ∀ c ∈ pair.1, isFormPlain c = true := by
  induction heavy : weight pair.1 using Nat.strong_induction_on generalizing pair with
  | _ n ih =>
    obtain ⟨value, read⟩ := found pair member
    obtain ⟨sent, isSent, same⟩ := exists_sent_of_queryGet (List.ne_nil_of_mem member) read
    by_cases plain : ∀ c ∈ sent.1, isFormPlain c = true
    · rw [← same, formEscape_of_plain plain]
      exact plain
    · push Not at plain
      obtain ⟨c, inside, reserved⟩ := plain
      have lighter := weight_lt_formEscape ⟨c, inside, reserved⟩
      rw [same, heavy] at lighter
      exact absurd (ih _ lighter isSent rfl c inside) reserved

/-! ## What the readers give for keys that are left alone -/

variable (plain : ∀ pair ∈ pairs, ∀ c ∈ pair.1, isFormPlain c = true)

include plain

theorem pieces_of_plain (present : pairs ≠ []) :
    ((formText pairs).splitOn '&').map MsgUrl.queryPair =
      pairs.map fun pair => (pair.1, formEscape pair.2) := by
  rw [(pieces_formText present).1]
  refine List.map_congr_left fun pair member => ?_
  rw [formEscape_of_plain (plain pair member)]

theorem decode_of_plain {pair : Str × Str} (member : pair ∈ pairs) :
    percentDecode pair.1 = pair.1 ∧ MsgUrl.decodeQueryValue pair.1 = pair.1 := by
  have fixed {change : Char → Char} (changes : ∀ c, isFormPlain c = true → change c = c) :
      pair.1.map change = pair.1 := by
    conv_rhs => rw [← List.map_id pair.1]
    exact List.map_congr_left fun c inside => changes c (plain pair member c inside)
  have escaped := formEscape_of_plain (plain pair member)
  constructor
  · have decoded := percentDecode_formEscape pair.1
    rw [escaped] at decoded
    rw [decoded]
    exact fixed fun c isPlain => if_neg (ne_of_isFormPlain isPlain (by decide))
  · have decoded := decodeQueryValue_formEscape pair.1
    rw [escaped] at decoded
    rw [decoded]
    exact fixed fun c isPlain => if_neg (ne_of_isFormPlain isPlain (by decide))

theorem queryParam_formText (present : pairs ≠ []) {url : MsgUrl}
    (sent : url.query = formText pairs) (key : Str) :
    url.queryParam key = (OrderedMap.get? pairs key).map (List.map plusToSpace) := by
  unfold MsgUrl.queryParam
  rw [sent, pieces_of_plain plain present]
  clear sent present
  induction pairs with
  | nil => rfl
  | cons pair rest ih =>
    rw [List.map_cons, List.findSome?_cons, (decode_of_plain plain List.mem_cons_self).1,
      OrderedMap.get?_cons pair.1 key pair.2 rest, decodeQueryValue_formEscape,
      ih fun other member => plain other (List.mem_cons_of_mem pair member)]
    by_cases same : pair.1 = key
    · rw [if_pos same, if_pos same]
      rfl
    · rw [if_neg same, if_neg same]

theorem queryGet_formText (present : pairs ≠ []) (key : Str) :
    PathPattern.queryGet (formText pairs) key =
      (OrderedMap.get? pairs key).map (List.map plusToSpace) := by
  unfold PathPattern.queryGet
  rw [(pieces_formText present).2, pieces_of_plain plain present]
  clear plain present
  induction pairs with
  | nil => rfl
  | cons pair rest ih =>
    rw [List.map_cons, List.find?_cons, OrderedMap.get?_cons pair.1 key pair.2 rest]
    by_cases same : pair.1 = key
    · rw [if_pos same, decide_eq_true same]
      exact congrArg some (decodeQueryValue_formEscape pair.2)
    · rw [if_neg same, decide_eq_false same]
      exact ih

theorem urlParams_formText (present : pairs ≠ []) (schema : Option Value) (key : Str) :
    OrderedMap.get? (urlParams readF64 (formText pairs) schema) key =
      (OrderedMap.get? pairs.reverse key).map fun value =>
        coerce readF64 (declaredType schema key) (value.map plusToSpace) := by
  have kept : (pairs.map fun pair => (pair.1, formEscape pair.2)).filter
      (·.1.head? ≠ some '$') = pairs.map fun pair => (pair.1, formEscape pair.2) := by
    rw [List.filter_eq_self]
    intro sent member
    obtain ⟨pair, isPair, rfl⟩ := List.mem_map.mp member
    refine decide_eq_true fun isControl => ?_
    exact ne_of_isFormPlain (plain pair isPair '$' (List.mem_of_head? isControl)) (by decide) rfl
  have read : ∀ pair ∈ pairs, (MsgUrl.decodeQueryValue pair.1,
      coerce readF64 (declaredType schema (MsgUrl.decodeQueryValue pair.1))
        (MsgUrl.decodeQueryValue (formEscape pair.2))) =
      (pair.1, coerce readF64 (declaredType schema pair.1) (pair.2.map plusToSpace)) := by
    intro pair member
    rw [(decode_of_plain plain member).2, decodeQueryValue_formEscape]
  unfold urlParams queryPairs
  rw [(pieces_formText present).2, pieces_of_plain plain present, kept, List.map_map,
    OrderedMap.get?_ofList]
  refine (congrArg (fun entries => OrderedMap.get? (List.reverse entries) key)
    (List.map_congr_left read)).trans ?_
  rw [← List.map_reverse]
  exact OrderedMap.get?_map_value pairs.reverse
    (fun key value => coerce readF64 (declaredType schema key) (value.map plusToSpace)) key

end Pieces

/-- For every list of pairs and schema, all readers give the first value of every key back from
the form, exactly if the keys are left alone, first values have no plus sign, last values read as
they do, and the schema leaves them strings. -/
theorem form_pairs_read_back_iff (schema : Option Value) (pairs : List (Str × Str)) :
    ReadsBack readF64 schema pairs ↔ Readable readF64 schema pairs := by
  have readers (plain : ∀ pair ∈ pairs, ∀ c ∈ pair.1, isFormPlain c = true) {key value : Str}
      (first : OrderedMap.get? pairs key = some value) :
      ((∀ url : MsgUrl, url.query = formText pairs → url.queryParam key = some value) ∧
        PathPattern.queryGet (formText pairs) key = some value ∧
          OrderedMap.get? (urlParams readF64 (formText pairs) schema) key = some (.str value)) ↔
        '+' ∉ value ∧
          (OrderedMap.get? pairs.reverse key).map (List.map plusToSpace) = some value ∧
            coerce readF64 (declaredType schema key) value = .str value := by
    have present : pairs ≠ [] := List.ne_nil_of_mem (OrderedMap.mem_of_get? first)
    have last : (OrderedMap.get? (urlParams readF64 (formText pairs) schema) key =
        some (.str value)) ↔
          (OrderedMap.get? pairs.reverse key).map (List.map plusToSpace) = some value ∧
            coerce readF64 (declaredType schema key) value = .str value := by
      rw [urlParams_formText readF64 plain present]
      cases OrderedMap.get? pairs.reverse key with
      | none => simp
      | some other =>
        rw [Option.map_some, Option.map_some, Option.some.injEq, Option.some.injEq]
        exact coerce_eq_str readF64
    rw [last, queryGet_formText plain present, first, Option.map_some, Option.some.injEq,
      map_plusToSpace_eq_self]
    constructor
    · rintro ⟨-, noPlus, rest⟩
      exact ⟨noPlus, rest⟩
    · rintro ⟨noPlus, rest⟩
      refine ⟨fun url sent => ?_, noPlus, rest⟩
      rw [queryParam_formText plain present sent, first, Option.map_some,
        map_plusToSpace_eq_self.mpr noPlus]
  constructor
  · intro reads
    have plain : ∀ pair ∈ pairs, ∀ c ∈ pair.1, isFormPlain c = true := by
      intro pair member
      refine plain_of_queryGet (fun other isOther => ?_) member
      cases first : OrderedMap.get? pairs other.1 with
      | none => exact absurd (List.mem_map_of_mem isOther) (OrderedMap.get?_eq_none.mp first)
      | some value => exact ⟨value, (reads other.1 value first).2.1⟩
    exact ⟨plain, fun key value first => (readers plain first).mp (reads key value first)⟩
  · intro readable key value first
    exact (readers readable.keys first).mpr (readable.values key value first)

/-- A plus sign is read as a space. -/
theorem plus_reads_as_space :
    PathPattern.queryGet (formText [("q", "a+b")]) "q" = some "a b" ∧
      ¬ ReadsBack (fun _ => none) none [("q", "a+b")] := by
  have read : PathPattern.queryGet (formText [("q", "a+b")]) "q" = some "a b" := by
    decide +kernel
  refine ⟨read, fun reads => ?_⟩
  have expected := (reads "q" "a+b" (by decide)).2.1
  rw [read] at expected
  exact absurd expected (by decide)

end Rs2Runtime.Services.QueryParams
