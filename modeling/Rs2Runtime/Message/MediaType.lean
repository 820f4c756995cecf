import Rs2Runtime.Message.Basic

/-!
Contract: the wire form of media types.

Owns:
- printing a media type, and parsing a header value;
- which media types are read back from their wire form, and how they are made.
-/

namespace Rs2Runtime.MediaType

open Text

/-! ## Wire form -/

/-- The wire form, with the schema reference as a parameter. -/
def display (mediaType : MediaType) : Str :=
  match mediaType.schema with
  | some schema => mediaType.essence ++ ("; schema=\"" : Str) ++ schema ++ ("\"" : Str)
  | none => mediaType.essence

def withSchema (mediaType : MediaType) (schema : Str) : MediaType :=
  { mediaType with schema := some schema }

/-- Remove quotes from both ends. -/
def unquote (text : Str) : Str :=
  trimMatches (· == '"') text

/-- One parameter of a header value; the last `schema` is kept. -/
def parseParam (schema : Option Str) (param : Str) : Option Str :=
  match splitOnce ['='] param with
  | some (name, value) =>
    if toAsciiLowercase (trim name) = ("schema" : Str) then
      some (unquote (trim value))
    else
      schema
  | none => schema

/-- Parse a header value; all parameters but `schema` are dropped. -/
def parse (headerValue : Str) : MediaType :=
  match headerValue.splitOn ';' with
  | first :: params =>
    ⟨toAsciiLowercase (trim first), params.foldl parseParam none⟩
  | [] => ⟨"application/octet-stream", none⟩

/-! ## Trimming -/

theorem trimMatches_sublist (drop : Char → Bool) (s : Str) :
    (trimMatches drop s).Sublist s := by
  have back : (trimMatches drop s).Sublist (s.dropWhile drop) :=
    (List.rdropWhile_prefix drop _).sublist
  exact back.trans (List.dropWhile_suffix drop).sublist

theorem not_mem_trimMatches {c : Char} {s : Str} (absent : c ∉ s) (drop : Char → Bool) :
    c ∉ trimMatches drop s :=
  fun member => absent ((trimMatches_sublist drop s).subset member)

theorem trimMatches_trimMatches (drop : Char → Bool) (s : Str) :
    trimMatches drop (trimMatches drop s) = trimMatches drop s := by
  rw [trimMatches_eq_self_iff]
  constructor
  · intro c isFirst
    -- What is left starts as the text without its leading characters does.
    obtain ⟨dropped, whole⟩ := List.rdropWhile_prefix drop (s.dropWhile drop)
    have starts : (s.dropWhile drop).head? = some c := by
      rw [← whole, List.head?_append_of_ne_nil]
      · exact isFirst
      · intro empty
        rw [trimMatches, empty] at isFirst
        cases isFirst
    have kept := List.head?_dropWhile_not drop s
    rwa [starts] at kept
  · intro c isLast
    have nonempty : trimMatches drop s ≠ [] := by
      intro empty
      rw [empty] at isLast
      cases isLast
    rw [List.getLast?_eq_some_getLast nonempty] at isLast
    cases isLast
    exact Bool.of_not_eq_true (List.rdropWhile_last_not drop _ nonempty)

/-- What is not dropped stays. -/
theorem mem_trimMatches {c : Char} {s : Str} (member : c ∈ s) {drop : Char → Bool}
    (kept : drop c = false) : c ∈ trimMatches drop s := by
  have behind : c ∈ s.dropWhile drop := by
    rw [← List.takeWhile_append_dropWhile (p := drop) (l := s)] at member
    refine (List.mem_append.mp member).resolve_left fun dropped => ?_
    rw [List.mem_takeWhile_imp dropped] at kept
    cases kept
  rw [← @List.rdropWhile_append_rtakeWhile _ drop (s.dropWhile drop)] at behind
  refine (List.mem_append.mp behind).resolve_right fun dropped => ?_
  rw [List.mem_rtakeWhile_imp dropped] at kept
  cases kept

theorem isWhitespace_toLower (c : Char) : isWhitespace c.toLower = isWhitespace c := by
  by_cases upper : c.isUpper = true
  · have bounds : 65 ≤ c.toNat ∧ c.toNat ≤ 90 := by
      simp only [Char.isUpper, decide_eq_true_eq, ge_iff_le, UInt32.le_iff_toNat_le] at upper
      exact upper
    have lowered : c.toLower.toNat = c.toNat + 32 := by
      rw [Char.toLower_eq_of_isUpper upper, Char.toNat_ofNat, if_pos (Or.inl (by omega))]
    have ordinary : ∀ n : Nat, 65 ≤ n → n ≤ 122 → ∀ other : Char, other.toNat = n →
        isWhitespace other = false := by
      intro n low high other same
      unfold isWhitespace
      rw [same]
      simp only [Bool.or_eq_false_iff, Bool.and_eq_false_iff, decide_eq_false_iff_not,
        beq_eq_false_iff_ne]
      omega
    rw [ordinary _ (by omega) (by omega) c rfl, ordinary _ (by omega) (by omega) _ lowered]
  · rw [Char.toLower_eq_of_not_isUpper upper]

theorem trimMatches_map {drop : Char → Bool} {f : Char → Char} (alike : ∀ c, drop (f c) = drop c)
    (s : Str) : trimMatches drop (s.map f) = (trimMatches drop s).map f := by
  have same : drop ∘ f = drop := funext alike
  unfold trimMatches
  rw [List.dropWhile_map, same]
  unfold List.rdropWhile
  rw [← List.map_reverse, List.dropWhile_map, same, List.map_reverse]

/-- The form in which every essence is kept. -/
theorem canonical_essence (s : Str) :
    toAsciiLowercase (trim (toAsciiLowercase (trim s))) = toAsciiLowercase (trim s) := by
  have lowered : trim (toAsciiLowercase (trim s)) = toAsciiLowercase (trim (trim s)) :=
    trimMatches_map isWhitespace_toLower (trim s)
  have trimmed : trim (trim s) = trim s := trimMatches_trimMatches isWhitespace s
  rw [lowered, trimmed, toAsciiLowercase_idem]

/-- Only a semicolon is a semicolon in lower case. -/
theorem eq_semicolon_of_toLower {c : Char} (lowered : c.toLower = ';') : c = ';' := by
  unfold Char.toLower at lowered
  split at lowered
  next upper =>
    obtain ⟨low, high⟩ := upper
    have value := congrArg UInt32.toNat (congrArg Char.val lowered)
    simp only [ge_iff_le, UInt32.le_iff_toNat_le] at low high
    rw [UInt32.toNat_add] at value
    simp at low high value
    omega
  next => exact lowered

theorem semicolon_not_mem_lowercase {s : Str} (absent : ';' ∉ s) : ';' ∉ toAsciiLowercase s := by
  intro member
  obtain ⟨c, isMember, lowered⟩ := List.mem_map.mp member
  exact absent (eq_semicolon_of_toLower lowered ▸ isMember)

/-- Quotes around a text are all that is removed besides its own. -/
theorem unquote_quoted (s : Str) : unquote ('"' :: (s ++ ['"'])) = unquote s := by
  unfold unquote trimMatches
  rw [List.dropWhile_cons_of_pos (by rfl), List.dropWhile_append]
  split
  next empty =>
    rw [List.isEmpty_iff.mp empty]
    rfl
  next => rw [List.rdropWhile_concat_pos _ _ _ (by rfl)]

theorem trim_quoted (s : Str) : trim ('"' :: (s ++ ['"'])) = '"' :: (s ++ ['"']) := by
  unfold trim trimMatches
  rw [List.dropWhile_cons_of_neg (by decide), ← List.cons_append,
    List.rdropWhile_concat_neg _ _ _ (by decide)]

/-! ## Reading the wire form back -/

/-- A schema reference never spans two parameters. -/
theorem semicolon_not_mem_schema {params : List Str} (clean : ∀ param ∈ params, ';' ∉ param)
    {known : Option Str} (cleanKnown : ∀ schema, known = some schema → ';' ∉ schema)
    {schema : Str} (parsed : params.foldl parseParam known = some schema) : ';' ∉ schema := by
  induction params generalizing known with
  | nil => exact cleanKnown schema parsed
  | cons param params ih =>
    refine ih (fun other member => clean other (List.mem_cons_of_mem _ member))
      (fun found same => ?_) parsed
    unfold parseParam at same
    split at same
    next name value split_ =>
      split at same
      · cases same
        refine not_mem_trimMatches (not_mem_trimMatches ?_ _) _
        intro member
        refine clean param List.mem_cons_self ?_
        rw [splitOnce_append split_]
        exact List.mem_append_right _ member
      · exact cleanKnown found same
    next => exact cleanKnown found same

theorem parse_of_not_mem {essence : Str} (plain : ';' ∉ essence) :
    parse essence = ⟨toAsciiLowercase (trim essence), none⟩ := by
  rw [parse, List.splitOn_eq_singleton plain]
  rfl

/-- A quoted schema reference is read without its quotes. -/
theorem parseParam_schema (schema : Str) (known : Option Str) :
    parseParam known ((" schema=\"" : Str) ++ schema ++ ("\"" : Str)) = some (unquote schema) := by
  have shape : (" schema=\"" : Str) ++ schema ++ ("\"" : Str) =
      (" schema" : Str) ++ '=' :: '"' :: (schema ++ ['"']) := by
    simp
  have name : toAsciiLowercase (trim (" schema" : Str)) = ("schema" : Str) := by decide
  rw [parseParam, shape, splitOnce_char_of_not_mem (by decide)]
  dsimp only
  rw [if_pos name, trim_quoted, unquote_quoted]

/-- The parts of the wire form. -/
theorem splitOn_display_schema (essence schema : Str) :
    (essence ++ ("; schema=\"" : Str) ++ schema ++ ("\"" : Str)).splitOn ';' =
      essence.splitOn ';' ++
        ((" schema=\"" : Str) ++ schema ++ ("\"" : Str)).splitOn ';' := by
  have shape : essence ++ ("; schema=\"" : Str) ++ schema ++ ("\"" : Str) =
      essence ++ ';' :: ((" schema=\"" : Str) ++ schema ++ ("\"" : Str)) := by
    simp
  rw [shape, List.splitOn_append_cons_self]

/-- A media type whose wire form is read back as it is. -/
structure PrintsBack (mediaType : MediaType) : Prop where
  /-- The essence is in the form every media type is made with. -/
  canonical : toAsciiLowercase (trim mediaType.essence) = mediaType.essence
  plain : ';' ∉ mediaType.essence
  schema : ∀ schema, mediaType.schema = some schema → ';' ∉ schema ∧ unquote schema = schema

theorem parse_display {mediaType : MediaType} (printsBack : mediaType.PrintsBack) :
    parse mediaType.display = mediaType := by
  obtain ⟨essence, schema⟩ := mediaType
  obtain ⟨canonical, plain, schemaReads⟩ := printsBack
  cases schema with
  | none =>
    rw [display, parse_of_not_mem plain]
    exact congrArg (fun essence => MediaType.mk essence none) canonical
  | some schema =>
    obtain ⟨clean, unquoted⟩ := schemaReads schema rfl
    have single : ';' ∉ (" schema=\"" : Str) ++ schema ++ ("\"" : Str) := by
      simp [clean]
    rw [display, parse, splitOn_display_schema, List.splitOn_eq_singleton plain,
      List.splitOn_eq_singleton single]
    dsimp only [List.singleton_append, List.foldl_cons, List.foldl_nil]
    rw [parseParam_schema, unquoted]
    exact congrArg (fun essence => MediaType.mk essence (some schema)) canonical

/-- The essence of a parsed header value has no parameters. -/
theorem semicolon_not_mem_parse_essence (text : Str) : ';' ∉ (parse text).essence := by
  unfold parse
  split
  next first params parts =>
    have member : first ∈ text.splitOn ';' := by
      rw [parts]
      exact List.mem_cons_self
    exact semicolon_not_mem_lowercase (not_mem_trimMatches (not_mem_of_mem_splitOn member) _)
  next => decide

theorem semicolon_not_mem_parse_schema {text schema : Str}
    (parsed : (parse text).schema = some schema) : ';' ∉ schema := by
  unfold parse at parsed
  split at parsed
  next first params parts =>
    refine semicolon_not_mem_schema (fun param member => ?_) (fun _ none_ => ?_) parsed
    · refine not_mem_of_mem_splitOn (s := text) ?_
      rw [parts]
      exact List.mem_cons_of_mem _ member
    · cases none_
  next => cases parsed

/-- Exactly these media types are read back from their wire form. -/
theorem parse_display_iff (mediaType : MediaType) :
    parse mediaType.display = mediaType ↔ mediaType.PrintsBack := by
  refine ⟨fun same => ?_, parse_display⟩
  have plain : ';' ∉ mediaType.essence := by
    rw [← same]
    exact semicolon_not_mem_parse_essence _
  obtain ⟨essence, schema⟩ := mediaType
  cases schema with
  | none =>
    rw [display, parse_of_not_mem plain] at same
    exact ⟨congrArg MediaType.essence same, plain, nofun⟩
  | some schema =>
    have clean : ';' ∉ schema :=
      semicolon_not_mem_parse_schema (congrArg MediaType.schema same)
    have single : ';' ∉ (" schema=\"" : Str) ++ schema ++ ("\"" : Str) := by
      simp [clean]
    rw [display, parse, splitOn_display_schema, List.splitOn_eq_singleton plain,
      List.splitOn_eq_singleton single] at same
    dsimp only [List.singleton_append, List.foldl_cons, List.foldl_nil] at same
    rw [parseParam_schema] at same
    refine ⟨congrArg MediaType.essence same, plain, fun other isSchema => ?_⟩
    cases isSchema
    exact ⟨clean, Option.some.inj (congrArg MediaType.schema same)⟩

/-! ## Constructed media types -/

/-- How the runtime makes a media type. -/
inductive Construction where
  | new (essence : Str)
  | withSchema (base : Construction) (schema : Str)
  | parse (headerValue : Str)

namespace Construction

def value : Construction → MediaType
  | .new essence => MediaType.new essence
  | .withSchema base schema => base.value.withSchema schema
  | .parse headerValue => MediaType.parse headerValue

/-- No parameters are given as part of the essence. -/
def PlainEssence : Construction → Prop
  | .new essence => ';' ∉ essence
  | .withSchema base _ => base.PlainEssence
  | .parse _ => True

/-- No parameters are given as part of the essence, and the schema reference that is given last has
no semicolon and no quotes at its ends. -/
def Readable : Construction → Prop
  | .new essence => ';' ∉ essence
  | .withSchema base schema =>
    base.PlainEssence ∧ ';' ∉ schema ∧ schema.head? ≠ some '"' ∧ schema.getLast? ≠ some '"'
  | .parse _ => True

theorem canonical (made : Construction) :
    toAsciiLowercase (trim made.value.essence) = made.value.essence := by
  induction made with
  | new essence => exact canonical_essence essence
  | withSchema base schema ih => exact ih
  | parse headerValue =>
    rw [value, MediaType.parse]
    split
    · exact canonical_essence _
    · decide

theorem semicolon_not_mem_essence_iff (made : Construction) :
    ';' ∉ made.value.essence ↔ made.PlainEssence := by
  induction made with
  | new essence =>
    refine not_congr ⟨fun member => ?_, fun member => ?_⟩
    · by_contra absent
      exact semicolon_not_mem_lowercase (not_mem_trimMatches absent _) member
    · exact List.mem_map.mpr ⟨';', mem_trimMatches member (by decide), by decide⟩
  | withSchema base schema ih => exact ih
  | parse headerValue => exact iff_of_true (semicolon_not_mem_parse_essence headerValue) trivial

end Construction

theorem unquote_eq_self_iff (s : Str) :
    unquote s = s ↔ s.head? ≠ some '"' ∧ s.getLast? ≠ some '"' := by
  have ends : ∀ found : Option Char, (∀ c, found = some c → (c == '"') = false) ↔
      found ≠ some '"' := by
    intro found
    constructor
    · intro kept quoted
      exact absurd (kept '"' quoted) (by decide)
    · rintro unquoted c rfl
      exact beq_eq_false_iff_ne.mpr fun same => unquoted (congrArg some same)
  rw [unquote, trimMatches_eq_self_iff, ends, ends]

/-- What is parsed has no quotes at the ends of its schema reference. -/
theorem unquote_parse_schema {text schema : Str} (parsed : (parse text).schema = some schema) :
    unquote schema = schema := by
  -- Each parameter leaves the reference as it was or puts an unquoted one in its place.
  have kept : ∀ (params : List Str) (known : Option Str),
      (∀ found, known = some found → unquote found = found) →
        ∀ found, params.foldl parseParam known = some found → unquote found = found := by
    intro params
    induction params with
    | nil => exact fun _ unquoted => unquoted
    | cons param params ih =>
      intro known unquoted
      refine ih _ fun found same => ?_
      unfold parseParam at same
      split at same
      · split at same
        · cases same
          exact trimMatches_trimMatches _ _
        · exact unquoted found same
      · exact unquoted found same
  unfold parse at parsed
  split at parsed
  · exact kept _ none nofun schema parsed
  · cases parsed

theorem printsBack_parse (text : Str) : (parse text).PrintsBack where
  canonical := (Construction.parse text).canonical
  plain := semicolon_not_mem_parse_essence text
  schema := fun _ parsed =>
    ⟨semicolon_not_mem_parse_schema parsed, unquote_parse_schema parsed⟩

theorem Construction.printsBack_iff (made : Construction) :
    made.value.PrintsBack ↔ made.Readable := by
  cases made with
  | new essence =>
    have plain := (Construction.new essence).semicolon_not_mem_essence_iff
    refine ⟨fun printsBack => plain.mp printsBack.plain, fun readable => ?_⟩
    exact ⟨(Construction.new essence).canonical, plain.mpr readable, nofun⟩
  | withSchema base schema =>
    have plain := base.semicolon_not_mem_essence_iff
    constructor
    · intro printsBack
      obtain ⟨clean, unquoted⟩ := printsBack.schema schema rfl
      exact ⟨plain.mp printsBack.plain, clean, (unquote_eq_self_iff schema).mp unquoted⟩
    · rintro ⟨plainEssence, clean, ends⟩
      refine ⟨base.canonical, plain.mpr plainEssence, fun other isSchema => ?_⟩
      cases isSchema
      exact ⟨clean, (unquote_eq_self_iff schema).mpr ends⟩
  | parse headerValue => exact iff_of_true (printsBack_parse headerValue) trivial

/-- A media type is read back from its wire form exactly if no parameters were smuggled into its
essence and its schema reference has no semicolon and no quotes at its ends; printing what was
parsed is always read back. -/
theorem constructed_prints_back_iff (made : Construction) :
    (parse made.value.display = made.value ∧
      ∀ text, (parse (parse text).display).display = (parse text).display) ↔ made.Readable := by
  rw [parse_display_iff, made.printsBack_iff, and_iff_left_iff_imp]
  intro _ text
  rw [parse_display (printsBack_parse text)]

theorem schema_with_semicolon_is_cut :
    (Construction.withSchema (.new "application/json") "/a;b").value.display =
        "application/json; schema=\"/a;b\"".toList ∧
      parse "application/json; schema=\"/a;b\"".toList = ⟨"application/json", some "/a"⟩ := by
  decide

end Rs2Runtime.MediaType
