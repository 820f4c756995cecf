import Rs2Runtime.Data.Sorting
import Rs2Runtime.Text.Escaping

/-!
Contract: the canonical forms of a path and a query that a request is signed over.

Owns:
- decoding and encoding again, the canonical path with its second encoding, the canonical query;
- that a canonical query stands for the multiset of its decoded pairs, and is its own form;
- when a canonical path stands for the list of its decoded segments.

Does not own: digests and keys of a signature, or the other strategies.

## Why escaped slashes are lost

The path is decoded as a whole, and a slash is kept when it is encoded again.  So a slash that was
escaped within a segment comes out as one between segments.
-/

namespace Rs2Runtime.Adapters.Credential

open Text Data

/-! ## Canonical forms -/

/-- Letters, digits and `-`, `_`, `.`, `~`. -/
def isUnreserved (octet : UInt8) : Bool :=
  let n := octet.toNat
  (65 ≤ n && n ≤ 90) || (97 ≤ n && n ≤ 122) || (48 ≤ n && n ≤ 57) ||
    n == 45 || n == 95 || n == 46 || n == 126

/-- As before, with the slash. -/
def isUnreservedPath (octet : UInt8) : Bool :=
  isUnreserved octet || octet == 47

/-- The encoding of a text for which only some octets stay as they are. -/
def encode (plain : UInt8 → Bool) (s : Str) : Str :=
  escapeOctets plain (utf8 s)

/-- Decode a component of the wire form, and encode it again. -/
def recanon (plain : UInt8 → Bool) (s : Str) : Str :=
  encode plain (percentDecode s)

/-- The path that is signed; services other than S3 encode it twice. -/
def canonicalPath (path service : Str) : Str :=
  let single := recanon isUnreservedPath path
  if service = "s3" then single else encode isUnreservedPath single

/-- The keys and values of a query as they stand in it. -/
def rawPairs (query : Str) : List (Str × Str) :=
  ((query.splitOn '&').filter fun part => part ≠ []).map fun part =>
    (splitOnce ['='] part).getD (part, [])

/-- The order of pairs of texts, by the first and then by the second. -/
def pairLe (left right : Str × Str) : Prop :=
  left.1 < right.1 ∨ left.1 = right.1 ∧ ¬ right.2 < left.2

instance (left right : Str × Str) : Decidable (pairLe left right) :=
  inferInstanceAs (Decidable (_ ∨ _))

def onBoth (f : Str → Str) (pair : Str × Str) : Str × Str :=
  (f pair.1, f pair.2)

def renderPairs (pairs : List (Str × Str)) : Str :=
  join ['&'] (pairs.map fun pair => pair.1 ++ '=' :: pair.2)

/-- The query that is signed. -/
def canonicalQueryString (query : Str) : Str :=
  if query = [] then []
  else renderPairs (((rawPairs query).map (onBoth (recanon isUnreserved))).insertionSort pairLe)

/-! ## What a path and a query mean -/

/-- The decoded pairs of a query. -/
def decodedPairs (query : Str) : List (Str × Str) :=
  (rawPairs query).map (onBoth percentDecode)

/-- The decoded segments of a path. -/
def decodedSegments (path : Str) : List Str :=
  (path.splitOn '/').map percentDecode

/-- The octets that a wire text stands for are of a text. -/
def WellEncoded (s : Str) : Prop :=
  ∃ text, utf8 text = percentOctets s

/-- Two queries have one canonical form exactly if they mean the same multiset of pairs, and the
form of a form is itself. -/
structure QueryByMeaning (query other : Str) : Prop where
  told : canonicalQueryString query = canonicalQueryString other ↔
    (decodedPairs query).Perm (decodedPairs other)
  again : canonicalQueryString (canonicalQueryString query) = canonicalQueryString query

/-- Two paths have one canonical form exactly if they have the same segments. -/
def PathByMeaning (service path other : Str) : Prop :=
  canonicalPath path service = canonicalPath other service ↔
    decodedSegments path = decodedSegments other

/-- Two neighbours become one segment, with a slash in it. -/
inductive Merged : List Str → List Str → Prop where
  | intro (front : List Str) (left right : Str) (rest : List Str) :
    Merged (front ++ left :: right :: rest) (front ++ (left ++ '/' :: right) :: rest)

/-- The two paths do not come from each other by escaping slashes, or by taking escapes of slashes
away, unless that leads back to the same segments. -/
def SlashesApart (path other : Str) : Prop :=
  Relation.EqvGen Merged (decodedSegments path) (decodedSegments other) →
    decodedSegments path = decodedSegments other

/-! ## Encoded texts -/

theorem escapable_isUnreserved : Escapable isUnreserved := by
  unfold Escapable
  decide +kernel

theorem escapable_isUnreservedPath : Escapable isUnreservedPath := by
  unfold Escapable
  decide +kernel

variable {plain : UInt8 → Bool} {pairs : List (Str × Str)} {segments others : List Str} {path : Str}

theorem percentDecode_encode (escapable : Escapable plain) (s : Str) :
    percentDecode (encode plain s) = s :=
  percentDecode_escape escapable s

theorem encode_injective (escapable : Escapable plain) : Function.Injective (encode plain) := by
  intro left right same
  have decoded := congrArg percentDecode same
  rw [percentDecode_encode escapable, percentDecode_encode escapable] at decoded
  exact decoded

theorem recanon_encode (escapable : Escapable plain) (s : Str) :
    recanon plain (encode plain s) = encode plain s := by
  rw [recanon, percentDecode_encode escapable]

/-- A reserved character does not stand in an encoded text. -/
theorem not_mem_encode {c : Char}
    (reserved : ∀ octet : UInt8, c ∉ escapeOctet isUnreserved octet) (s : Str) :
    c ∉ encode isUnreserved s := by
  intro member
  obtain ⟨octet, -, inside⟩ := List.mem_flatMap.mp member
  exact reserved octet inside

theorem ampersand_not_mem_encode (s : Str) : '&' ∉ encode isUnreserved s :=
  not_mem_encode (by decide +kernel) s

theorem equals_not_mem_encode (s : Str) : '=' ∉ encode isUnreserved s :=
  not_mem_encode (by decide +kernel) s

/-! ## Queries -/

/-- Pairs that can be read back from the text they make. -/
def Plain (pair : Str × Str) : Prop :=
  '=' ∉ pair.1 ∧ '&' ∉ pair.1 ∧ '&' ∉ pair.2

theorem rawPairs_nil : rawPairs [] = [] := by
  unfold rawPairs
  simp

theorem rawPairs_renderPairs (plain : ∀ pair ∈ pairs, Plain pair) :
    rawPairs (renderPairs pairs) = pairs := by
  cases pairs with
  | nil => exact rawPairs_nil
  | cons first rest =>
    have clean : ∀ part ∈ (first :: rest).map fun pair : Str × Str => pair.1 ++ '=' :: pair.2,
        '&' ∉ part := by
      intro part member
      obtain ⟨pair, among, rfl⟩ := List.mem_map.mp member
      obtain ⟨-, left, right⟩ := plain pair among
      simp [left, right]
    have filled : ∀ part ∈ (first :: rest).map fun pair : Str × Str => pair.1 ++ '=' :: pair.2,
        decide (part ≠ []) = true := by
      intro part member
      obtain ⟨pair, -, rfl⟩ := List.mem_map.mp member
      simp
    unfold rawPairs renderPairs join
    rw [List.splitOn_intercalate '&' clean (by simp), List.filter_eq_self.mpr filled, List.map_map]
    refine (List.map_congr_left fun pair among => ?_).trans (List.map_id _)
    show (splitOnce ['='] (pair.1 ++ '=' :: pair.2)).getD _ = pair
    rw [splitOnce_char_of_not_mem (plain pair among).1]
    rfl

theorem renderPairs_injective {others : List (Str × Str)} (plain : ∀ pair ∈ pairs, Plain pair)
    (otherPlain : ∀ pair ∈ others, Plain pair) (same : renderPairs pairs = renderPairs others) :
    pairs = others := by
  rw [← rawPairs_renderPairs plain, same, rawPairs_renderPairs otherPlain]

theorem pairLe_total (left right : Str × Str) : pairLe left right ∨ pairLe right left := by
  unfold pairLe
  rcases trichotomous_of (· < ·) left.1 right.1 with less | same | more
  · exact .inl (.inl less)
  · by_cases second : right.2 < left.2
    · exact .inr (.inr ⟨same.symm, asymm second⟩)
    · exact .inl (.inr ⟨same, second⟩)
  · exact .inr (.inl more)

theorem not_lt_trans {left middle right : Str} (first : ¬ middle < left)
    (second : ¬ right < middle) : ¬ right < left := by
  intro less
  rcases trichotomous_of (· < ·) middle right with before | same | after
  · exact first (Trans.trans before less)
  · exact first (same ▸ less)
  · exact second after

theorem pairLe_trans (left middle right : Str × Str) (first : pairLe left middle)
    (second : pairLe middle right) : pairLe left right := by
  unfold pairLe at *
  rcases first with less | ⟨same, notLess⟩
  · rcases second with less' | ⟨same', -⟩
    · exact .inl (Trans.trans less less')
    · exact .inl (same' ▸ less)
  · rcases second with less' | ⟨same', notLess'⟩
    · exact .inl (same ▸ less')
    · exact .inr ⟨same.trans same', not_lt_trans notLess notLess'⟩

theorem pairLe_antisymm (left right : Str × Str) (first : pairLe left right)
    (second : pairLe right left) : left = right := by
  unfold pairLe at *
  rcases first with less | ⟨same, notLess⟩
  · rcases second with less' | ⟨same', -⟩
    · exact absurd less' (asymm less)
    · exact absurd less (same' ▸ irrefl _)
  · rcases second with less' | ⟨-, notLess'⟩
    · exact absurd less' (same ▸ irrefl _)
    · rcases trichotomous_of (· < ·) left.2 right.2 with before | equal | after
      · exact absurd before notLess'
      · exact Prod.ext same equal
      · exact absurd after notLess

/-- Pairs in one order, whatever order they come in. -/
theorem sorted_eq_of_perm {others : List (Str × Str)} (same : pairs.Perm others) :
    pairs.insertionSort pairLe = others.insertionSort pairLe := by
  apply Sorting.insertionSort_eq_of_perm same
  · intro left _ right _
    exact pairLe_total left right
  · intro left _ middle _ right _
    exact pairLe_trans left middle right
  · intro left _ right _
    exact pairLe_antisymm left right

/-- The pairs of a canonical query, in their order. -/
def canonicalPairs (query : Str) : List (Str × Str) :=
  ((decodedPairs query).map (onBoth (encode isUnreserved))).insertionSort pairLe

theorem canonicalQueryString_eq (query : Str) :
    canonicalQueryString query = renderPairs (canonicalPairs query) := by
  have pairs : (rawPairs query).map (onBoth (recanon isUnreserved)) =
      (decodedPairs query).map (onBoth (encode isUnreserved)) := by
    unfold decodedPairs
    rw [List.map_map]
    rfl
  unfold canonicalQueryString canonicalPairs
  rw [pairs]
  split
  next empty =>
    subst empty
    unfold decodedPairs
    rw [rawPairs_nil]
    rfl
  next => rfl

theorem mem_canonicalPairs {query : Str} {pair : Str × Str} (member : pair ∈ canonicalPairs query) :
    ∃ decoded, onBoth (encode isUnreserved) decoded = pair := by
  have among := (List.perm_insertionSort pairLe _).mem_iff.mp member
  obtain ⟨decoded, -, same⟩ := List.mem_map.mp among
  exact ⟨decoded, same⟩

theorem plain_of_mem_canonicalPairs {query : Str} {pair : Str × Str}
    (member : pair ∈ canonicalPairs query) : Plain pair := by
  obtain ⟨decoded, rfl⟩ := mem_canonicalPairs member
  exact ⟨equals_not_mem_encode _, ampersand_not_mem_encode _, ampersand_not_mem_encode _⟩

theorem onBoth_encode_injective : Function.Injective (onBoth (encode isUnreserved)) := by
  intro left right same
  obtain ⟨first, second⟩ := Prod.mk.inj same
  exact Prod.ext (encode_injective escapable_isUnreserved first)
    (encode_injective escapable_isUnreserved second)

theorem canonicalQueryString_eq_iff (query other : Str) :
    canonicalQueryString query = canonicalQueryString other ↔
      (decodedPairs query).Perm (decodedPairs other) := by
  rw [canonicalQueryString_eq, canonicalQueryString_eq]
  constructor
  · intro same
    have pairs : canonicalPairs query = canonicalPairs other :=
      renderPairs_injective (fun _ => plain_of_mem_canonicalPairs)
        (fun _ => plain_of_mem_canonicalPairs) same
    unfold canonicalPairs at pairs
    have sorted := (List.perm_insertionSort pairLe
      ((decodedPairs query).map (onBoth (encode isUnreserved)))).symm
    rw [pairs] at sorted
    exact (List.map_perm_map_iff onBoth_encode_injective).mp
      (sorted.trans (List.perm_insertionSort pairLe _))
  · intro same
    unfold canonicalPairs
    rw [sorted_eq_of_perm (same.map _)]

theorem canonicalQueryString_again (query : Str) :
    canonicalQueryString (canonicalQueryString query) = canonicalQueryString query := by
  have own : ∀ pair ∈ canonicalPairs query, onBoth (recanon isUnreserved) pair = pair := by
    intro pair member
    obtain ⟨decoded, rfl⟩ := mem_canonicalPairs member
    exact Prod.ext (recanon_encode escapable_isUnreserved _)
      (recanon_encode escapable_isUnreserved _)
  have raw : rawPairs (canonicalQueryString query) = canonicalPairs query := by
    rw [canonicalQueryString_eq]
    exact rawPairs_renderPairs fun _ => plain_of_mem_canonicalPairs
  have again : canonicalPairs (canonicalQueryString query) = canonicalPairs query := by
    have encoded : (decodedPairs (canonicalQueryString query)).map (onBoth (encode isUnreserved)) =
        canonicalPairs query := by
      unfold decodedPairs
      rw [raw, List.map_map]
      exact (List.map_congr_left own).trans (List.map_id _)
    unfold canonicalPairs at encoded ⊢
    rw [encoded]
    exact sorted_eq_of_perm (List.perm_insertionSort pairLe _)
  rw [canonicalQueryString_eq (canonicalQueryString query), again, ← canonicalQueryString_eq]

/-! ## Paths -/

theorem join_cons {sep part : Str} {parts : List Str} (more : parts ≠ []) :
    join sep (part :: parts) = part ++ (sep ++ join sep parts) := by
  cases parts with
  | nil => exact absurd rfl more
  | cons next parts =>
    unfold join
    rw [List.intercalate_cons_cons, List.append_assoc]

/-- What is decoded segment by segment is decoded as a whole. -/
theorem percentDecode_join (filled : segments ≠ []) (valid : WellEncoded (join ['/'] segments)) :
    percentDecode (join ['/'] segments) = join ['/'] (segments.map percentDecode) := by
  induction segments with
  | nil => exact absurd rfl filled
  | cons segment rest ih =>
    cases rest with
    | nil =>
      have single : ∀ part : Str, join ['/'] [part] = part := fun part => by simp [join]
      rw [single]
      exact (single _).symm
    | cons next rest =>
      obtain ⟨text, encoded⟩ := valid
      have whole := encoded
      rw [join_cons (List.cons_ne_nil _ _), List.singleton_append,
        percentOctets_append_cons (by decide) (by decide)] at encoded
      obtain ⟨before, after, rfl, left, right⟩ :=
        @exists_split_of_utf8 text '/' 47 (by decide) (by decide) _ _ encoded
      have decoded := ih (List.cons_ne_nil _ _) ⟨after, right⟩
      rw [percentDecode_eq whole, List.map_cons, join_cons (by simp), ← decoded,
        percentDecode_eq left, percentDecode_eq right]
      rfl

theorem percentDecode_path (valid : WellEncoded path) :
    percentDecode path = join ['/'] (decodedSegments path) := by
  have whole : join ['/'] (path.splitOn '/') = path := List.intercalate_splitOn '/'
  have decoded := percentDecode_join (List.splitOn_ne_nil _ _) (whole.symm ▸ valid)
  rw [whole] at decoded
  exact decoded

theorem canonicalPath_eq_iff (service path other : Str) :
    canonicalPath path service = canonicalPath other service ↔
      percentDecode path = percentDecode other := by
  have once := encode_injective escapable_isUnreservedPath
  unfold canonicalPath recanon
  constructor
  · intro same
    split at same
    · exact once same
    · exact once (once same)
  · intro same
    rw [same]

theorem join_of_merged (merged : Merged segments others) :
    join ['/'] segments = join ['/'] others := by
  obtain ⟨front, left, right, rest⟩ := merged
  induction front with
  | nil =>
    rw [List.nil_append, List.nil_append, join_cons (List.cons_ne_nil _ _)]
    cases rest with
    | nil => simp [join]
    | cons next rest =>
      rw [join_cons (List.cons_ne_nil _ _), join_cons (List.cons_ne_nil _ _)]
      simp
  | cons segment front ih =>
    rw [List.cons_append, List.cons_append, join_cons (by simp), join_cons (by simp), ih]

theorem join_of_eqvGen (related : Relation.EqvGen Merged segments others) :
    join ['/'] segments = join ['/'] others := by
  induction related with
  | rel _ _ merged => exact join_of_merged merged
  | refl _ => rfl
  | symm _ _ _ ih => exact ih.symm
  | trans _ _ _ _ _ first second => exact first.trans second

/-- All segments can be made one. -/
theorem eqvGen_join (segment : Str) (rest : List Str) :
    Relation.EqvGen Merged (segment :: rest) [join ['/'] (segment :: rest)] := by
  induction rest generalizing segment with
  | nil =>
    have single : join ['/'] [segment] = segment := by simp [join]
    rw [single]
    exact .refl _
  | cons next rest ih =>
    have merged : Merged (segment :: next :: rest) ((segment ++ '/' :: next) :: rest) :=
      .intro [] segment next rest
    rw [join_of_merged merged]
    exact .trans _ _ _ (.rel _ _ merged) (ih _)

theorem eqvGen_iff (filled : segments ≠ []) (filled' : others ≠ []) :
    Relation.EqvGen Merged segments others ↔ join ['/'] segments = join ['/'] others := by
  constructor
  · exact join_of_eqvGen
  · intro same
    obtain ⟨segment, rest, rfl⟩ := List.exists_cons_of_ne_nil filled
    obtain ⟨segment', rest', rfl⟩ := List.exists_cons_of_ne_nil filled'
    have first := eqvGen_join segment rest
    rw [same] at first
    exact .trans _ _ _ first (.symm _ _ (eqvGen_join segment' rest'))

theorem decodedSegments_ne_nil (path : Str) : decodedSegments path ≠ [] := by
  unfold decodedSegments
  simp [List.splitOn_ne_nil]

theorem pathByMeaning_iff {service other : Str} (valid : WellEncoded path)
    (otherValid : WellEncoded other) :
    PathByMeaning service path other ↔ SlashesApart path other := by
  unfold PathByMeaning SlashesApart
  rw [canonicalPath_eq_iff, percentDecode_path valid, percentDecode_path otherValid,
    eqvGen_iff (decodedSegments_ne_nil _) (decodedSegments_ne_nil _)]
  constructor
  · intro told same
    exact told.mp same
  · intro apart
    refine ⟨apart, fun same => ?_⟩
    rw [same]

/-- Paths without escaped slashes are apart. -/
theorem slashesApart_of_plain {other : Str} (plain : ∀ segment ∈ decodedSegments path,
    '/' ∉ segment) (otherPlain : ∀ segment ∈ decodedSegments other, '/' ∉ segment) :
    SlashesApart path other := by
  intro related
  have same := join_of_eqvGen related
  have split := List.splitOn_intercalate '/' plain (decodedSegments_ne_nil path)
  have split' := List.splitOn_intercalate '/' otherPlain (decodedSegments_ne_nil other)
  rw [← split, ← split']
  exact congrArg (List.splitOn '/') same

/-- What is signed follows the meaning of query and path, and not their spelling, exactly for paths
that differ in more than which slashes are escaped. -/
theorem signing_canonicalises_meaning_iff {service path other : Str} (valid : WellEncoded path)
    (otherValid : WellEncoded other) (query query' : Str) :
    QueryByMeaning query query' ∧ PathByMeaning service path other ↔ SlashesApart path other := by
  rw [pathByMeaning_iff valid otherValid]
  refine and_iff_right ⟨?_, ?_⟩
  · exact canonicalQueryString_eq_iff query query'
  · exact canonicalQueryString_again query

/-- Escapes that are not needed change nothing. -/
theorem spellings_of_a_letter_are_signed_alike :
    WellEncoded "/%61/b" ∧ WellEncoded "/a/b" ∧
      QueryByMeaning "b=%31&a" "a=&b=1" ∧ PathByMeaning "s3" "/%61/b" "/a/b" := by
  have valid : WellEncoded "/%61/b" := ⟨"/a/b", by decide +kernel⟩
  have otherValid : WellEncoded "/a/b" := ⟨"/a/b", by decide +kernel⟩
  refine ⟨valid, otherValid, (signing_canonicalises_meaning_iff valid otherValid _ _).mpr ?_⟩
  apply slashesApart_of_plain
  · decide +kernel
  · decide +kernel

/-- An escaped slash is signed as one between segments. -/
theorem escaped_slash_is_signed_as_separator :
    WellEncoded "/a%2Fb" ∧ WellEncoded "/a/b" ∧
      canonicalPath "/a%2Fb" "execute-api" = canonicalPath "/a/b" "execute-api" ∧
      decodedSegments "/a%2Fb" = [[], "a/b"] ∧ decodedSegments "/a/b" = [[], "a", "b"] := by
  refine ⟨⟨"/a/b", ?_⟩, ⟨"/a/b", ?_⟩, ?_, ?_, ?_⟩
  all_goals decide +kernel

end Rs2Runtime.Adapters.Credential
