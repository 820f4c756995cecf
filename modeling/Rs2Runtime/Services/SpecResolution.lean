import Rs2Runtime.Message.Stream
import Rs2Runtime.Services.SpecAuthority

/-!
Contract: which stored document governs a request, whatever the storage answers.

Owns:
- which prefixes of a request's segments can be read, from the cache and the storage's answers;
- the cache as the loop comes to each prefix;
- when the longest stored prefix governs, and no shorter one in its place.

Does not own: interleavings of reads with authoring requests, or what a document means.

## Why the condition speaks of shorter prefixes

The loop takes every failed read for absence.  A document that is stored and cannot be read is
therefore passed over like one that is not stored, and what happens next depends on what can be
read at the shorter prefixes alone.
-/

namespace Rs2Runtime.Services.SpecResolution

open Text Data Json
open Services.SpecStore (Cache cacheInsert get?_cacheInsert notStored candidate templates
  openTemplate plainTemplate)

/-! ## What can be read -/

/-- The storage answers with a body that can be read within the limit and parsed. -/
def Served (store : SpecStore) (answer : Except RsError Body) (doc : Value) : Prop :=
  ∃ body octets rest, answer = .ok body ∧
    body.materialize store.materializedBodyBytes = .ok (octets, rest) ∧
      store.codec.parse octets = some doc

/-- A document can be had: it is in the cache, or nothing is and the storage serves it. -/
def Given (store : SpecStore) (answer : Except RsError Body) (path : Str) (cache : Cache)
    (doc : Value) : Prop :=
  cache.get? path = some (some doc) ∨ cache.get? path = none ∧ Served store answer doc

/-- The cache after a prefix without a document: an error of the storage is entered as absence. -/
def noteAbsence (answer : Except RsError Body) (path : Str) (cache : Cache) : Cache :=
  if cache.get? path = none ∧ answer.isOk = false then cacheInsert cache path none else cache

section

variable (store : SpecStore) (answers : Nat → Except RsError Body) (segments : List Str)

/-- The cache with which a prefix is tried, after all longer ones without a document; entering an
absence may have cleared it. -/
def cacheAt : (top : Nat) → Cache → (split : Nat) → Cache
  | 0, cache, _ => cache
  | top + 1, cache, split =>
    if split = top + 1 then
      cache
    else
      cacheAt top (noteAbsence (answers (top + 1)) (candidate segments (top + 1)) cache) split

/-- The document of a prefix can be had when it is tried. -/
def Available (top : Nat) (cache : Cache) (split : Nat) (doc : Value) : Prop :=
  Given store (answers split) (candidate segments split)
    (cacheAt answers segments top cache split) doc

end

/-! ## The loop finds the first document that can be had -/

variable {doc : Value} {path : Str} {top split : Nat}

section Loop

variable {store : SpecStore} {answers : Nat → Except RsError Body} {segments : List Str}

theorem parseBody_eq_ok {body : Body} :
    store.parseBody body = .ok doc ↔ Served store (.ok body) doc := by
  unfold SpecStore.parseBody Served
  cases materialized : body.materialize store.materializedBodyBytes with
  | error e => simp [materialized]
  | ok read =>
    obtain ⟨octets, rest⟩ := read
    cases parsed : store.codec.parse octets <;> simp [materialized, parsed]

/-- A read gives the document that can be had, or notes that there is none. -/
theorem readThrough_cases (answer : Except RsError Body) (path : Str) (cache : Cache) :
    (∃ doc after, Given store answer path cache doc ∧
        store.readThrough answer path cache = (.ok doc, after)) ∨
      (∀ doc, ¬ Given store answer path cache doc) ∧
        ∃ e, store.readThrough answer path cache = (.error e, noteAbsence answer path cache) := by
  unfold SpecStore.readThrough noteAbsence Given
  cases cached : cache.get? path with
  | some entry =>
    cases entry with
    | some doc => exact .inl ⟨doc, cache, .inl rfl, rfl⟩
    | none => exact .inr ⟨by simp, _, by simp; rfl⟩
  | none =>
    cases answer with
    | error e => exact .inr ⟨by simp [Served], _, by simp [Except.isOk, Except.toBool]; rfl⟩
    | ok body =>
      cases parsed : store.parseBody body with
      | ok doc =>
        exact .inl ⟨doc, cacheInsert cache path (some doc), .inr ⟨rfl, parseBody_eq_ok.mp parsed⟩,
          by simp [parsed]⟩
      | error e =>
        refine .inr ⟨?_, e, by simp [parsed, Except.isOk, Except.toBool]⟩
        rintro doc (impossible | ⟨-, served⟩)
        · cases impossible
        · rw [parseBody_eq_ok.mpr served] at parsed
          cases parsed

theorem Given.unique {answer : Except RsError Body} {cache : Cache} {left right : Value}
    (isLeft : Given store answer path cache left) (isRight : Given store answer path cache right) :
    left = right := by
  rcases isLeft with cached | ⟨uncached, served⟩
  · rcases isRight with other | ⟨none_, -⟩
    · rw [cached] at other
      cases other
      rfl
    · rw [cached] at none_
      cases none_
  · rcases isRight with other | ⟨-, other⟩
    · rw [uncached] at other
      cases other
    · obtain ⟨body, octets, rest, rfl, materialized, parsed⟩ := served
      have same := (parseBody_eq_ok.mpr other).symm.trans
        (parseBody_eq_ok.mpr ⟨body, octets, rest, rfl, materialized, parsed⟩)
      cases same
      rfl

theorem available_top {cache : Cache} :
    Available store answers segments top cache top doc ↔
      Given store (answers top) (candidate segments top) cache doc := by
  cases top with
  | zero => rfl
  | succ top => rw [Available, cacheAt, if_pos rfl]

theorem available_below {cache : Cache} (below : split ≤ top) :
    Available store answers segments (top + 1) cache split doc ↔
      Available store answers segments top
        (noteAbsence (answers (top + 1)) (candidate segments (top + 1)) cache) split doc := by
  rw [Available, cacheAt, if_neg (by omega), Available]

/-- What the loop returns is the first document that can be had. -/
theorem resolveThrough_eq_some (top : Nat) (cache : Cache) (doc : Value) (split : Nat) :
    (store.resolveThrough answers segments top cache).1 = some (doc, split) ↔
      split ≤ top ∧ Available store answers segments top cache split doc ∧
        ∀ longer, split < longer → longer ≤ top →
          ∀ other, ¬ Available store answers segments top cache longer other := by
  induction top generalizing cache with
  | zero =>
    rcases @readThrough_cases store (answers 0) (candidate segments 0) cache with
      ⟨found, after, given, ran⟩ | ⟨absent, e, ran⟩
    · rw [SpecStore.resolveThrough, ran]
      constructor
      · intro same
        cases same
        exact ⟨Nat.le_refl 0, given, fun longer above within => by omega⟩
      · rintro ⟨within, available, -⟩
        cases Nat.le_zero.mp within
        cases given.unique available
        rfl
    · rw [SpecStore.resolveThrough, ran]
      refine ⟨fun same => (by cases same), ?_⟩
      rintro ⟨within, available, -⟩
      cases Nat.le_zero.mp within
      exact absurd available (absent doc)
  | succ top ih =>
    rcases @readThrough_cases store (answers (top + 1)) (candidate segments (top + 1))
      cache with ⟨found, after, given, ran⟩ | ⟨absent, e, ran⟩
    · rw [SpecStore.resolveThrough, ran]
      have here := available_top.mpr given
      constructor
      · intro same
        cases same
        exact ⟨Nat.le_refl _, here, fun longer above within => by omega⟩
      · rintro ⟨within, available, last⟩
        rcases Nat.lt_or_eq_of_le within with below | rfl
        · exact absurd here (last (top + 1) below (Nat.le_refl _) found)
        · cases given.unique (available_top.mp available)
          rfl
    · have missed : ∀ other, ¬ Available store answers segments (top + 1) cache (top + 1) other :=
        fun other available => absent other (available_top.mp available)
      rw [SpecStore.resolveThrough, ran]
      dsimp only
      rw [ih]
      constructor
      · rintro ⟨within, available, last⟩
        refine ⟨Nat.le_succ_of_le within, (available_below within).mpr available, ?_⟩
        intro longer above inside other given
        rcases Nat.lt_or_eq_of_le inside with below | rfl
        · have below := Nat.le_of_lt_succ below
          exact last longer above below other ((available_below below).mp given)
        · exact missed other given
      · rintro ⟨within, available, last⟩
        have below : split ≤ top := by
          rcases Nat.lt_or_eq_of_le within with below | rfl
          · exact Nat.le_of_lt_succ below
          · exact absurd available (missed doc)
        refine ⟨below, (available_below below).mp available, ?_⟩
        intro longer above inside other given
        exact last longer above (Nat.le_succ_of_le inside) other ((available_below inside).mpr given)

end Loop

/-! ## What is stored -/

section Storage

variable (store : SpecStore) (content : Str → Option Octets)
variable (answers : Nat → Except RsError Body) (segments : List Str) (cache : Cache)

/-- The longest prefix of the segments at which something is stored, with the root's document
behind all of them. -/
structure Longest (split : Nat) : Prop where
  within : split ≤ segments.length
  stored : (content (candidate segments split)).isSome = true
  last : ∀ longer, split < longer → longer ≤ segments.length →
    content (candidate segments longer) = none

/-- A document is stored at a path. -/
def Holds (path : Str) (doc : Value) : Prop :=
  ∃ octets, content path = some octets ∧ store.decode octets = .ok doc

/-- The cache tells what is stored, and the storage answers with it or with an error; an absence
it reports is one. -/
structure Consistent : Prop where
  cachedAbsence : ∀ path, cache.get? path = some none → content path = none
  cachedDocument : ∀ path doc, cache.get? path = some (some doc) → Holds store content path doc
  absent : ∀ split, content (candidate segments split) = none → ∃ e, answers split = .error e
  present : ∀ split body octets, answers split = .ok body → body.streamed = .ok octets →
    content (candidate segments split) = some octets
  reported : ∀ split e, answers split = .error e → e.code = .notFound →
    content (candidate segments split) = none

/-- The document of a prefix is in the cache that the loop has there, or the storage serves it. -/
def Readable (split : Nat) (doc : Value) : Prop :=
  Available store answers segments segments.length cache split doc

/-- What the loop returns for the request. -/
def governing : Option (Value × Nat) :=
  (store.resolveThrough answers segments segments.length cache).1

/-- The document of the longest stored prefix governs with the segments it consumes if it can be
read, nothing governs where nothing is stored, and no shorter prefix governs in the place of one
that is stored. -/
structure LongestGoverns : Prop where
  governs : ∀ split doc, Longest content segments split →
    Readable store answers segments cache split doc →
      Holds store content (candidate segments split) doc ∧
        governing store answers segments cache = some (doc, split)
  nothing : (∀ split, ¬ Longest content segments split) →
    governing store answers segments cache = none
  closed : ∀ split, Longest content segments split → ∀ shorter doc, shorter < split →
    governing store answers segments cache ≠ some (doc, shorter)

end Storage

/-! ## What can be read is stored -/

section Reading

variable {store : SpecStore} {content : Str → Option Octets}
variable {answers : Nat → Except RsError Body} {segments : List Str} {cache : Cache}

theorem Served.decode {body : Body} (served : Served store (.ok body) doc) :
    ∃ octets, body.streamed = .ok octets ∧ store.decode octets = .ok doc := by
  obtain ⟨given, octets, rest, same, materialized, parsed⟩ := served
  cases same
  have drained : (body.drain store.materializedBodyBytes).1 = .ok octets := by
    rw [Body.materialize_eq_drain] at materialized
    obtain ⟨held, drained, same⟩ := Outcome.map_eq_ok.mp materialized
    cases same
    exact drained
  refine ⟨octets, Body.streamed_of_drain drained, ?_⟩
  rw [SpecStore.decode, if_neg (Nat.not_lt.mpr (Body.length_of_drain drained)), parsed]

/-- Noting an absence brings no document into the cache. -/
theorem get?_noteAbsence {answer : Except RsError Body} {other : Str}
    (cached : (noteAbsence answer path cache).get? other = some (some doc)) :
    cache.get? other = some (some doc) := by
  unfold noteAbsence at cached
  split at cached
  · rcases get?_cacheInsert cached with ⟨-, impossible⟩ | before
    · cases impossible
    · exact before
  · exact cached

theorem get?_cacheAt
    (cached : (cacheAt answers segments top cache split).get? path = some (some doc)) :
    cache.get? path = some (some doc) := by
  induction top generalizing cache with
  | zero => exact cached
  | succ top ih =>
    rw [cacheAt] at cached
    split at cached
    · exact cached
    · exact get?_noteAbsence (ih cached)

/-! ## The longest stored prefix -/

/-- A bounded search has a last hit. -/
theorem exists_last_hit (hit : Nat → Prop) {first bound : Nat} (within : first ≤ bound)
    (hits : hit first) :
    ∃ last, first ≤ last ∧ last ≤ bound ∧ hit last ∧
      ∀ later, last < later → later ≤ bound → ¬ hit later := by
  classical
  refine ⟨Nat.findGreatest hit bound, Nat.le_findGreatest within hits,
    Nat.findGreatest_le bound, Nat.findGreatest_spec within hits, ?_⟩
  intro later above below
  exact Nat.findGreatest_is_greatest above below

theorem exists_longest (within : split ≤ segments.length)
    (stored : (content (candidate segments split)).isSome = true) :
    ∃ longest, Longest content segments longest := by
  obtain ⟨longest, -, below, hit, last⟩ := exists_last_hit
    (fun split => (content (candidate segments split)).isSome = true) within stored
  refine ⟨longest, below, hit, fun longer above inside => ?_⟩
  exact Option.not_isSome_iff_eq_none.mp (last longer above inside)

theorem Longest.unique {left right : Nat} (isLeft : Longest content segments left)
    (isRight : Longest content segments right) : left = right := by
  rcases Nat.lt_trichotomy left right with before | same | after
  · have stored := isRight.stored
    rw [isLeft.last right before isRight.within] at stored
    cases stored
  · exact same
  · have stored := isLeft.stored
    rw [isRight.last left after isLeft.within] at stored
    cases stored

variable (consistent : Consistent store content answers segments cache)

include consistent

theorem Consistent.holds_of_readable
    (readable : Readable store answers segments cache split doc) :
    Holds store content (candidate segments split) doc := by
  rcases readable with cached | ⟨-, served⟩
  · exact consistent.cachedDocument _ doc (get?_cacheAt cached)
  · obtain ⟨body, -, -, answered, -⟩ := id served
    rw [answered] at served
    obtain ⟨octets, streamed, decoded⟩ := served.decode
    exact ⟨octets, consistent.present split body octets answered streamed, decoded⟩

/-- Where nothing is stored nothing can be read. -/
theorem Consistent.not_readable (absent : content (candidate segments split) = none) (doc : Value) :
    ¬ Readable store answers segments cache split doc := by
  intro readable
  obtain ⟨octets, held, -⟩ := consistent.holds_of_readable readable
  rw [absent] at held
  cases held

theorem governs_of_longest (longest : Longest content segments split)
    (readable : Readable store answers segments cache split doc) :
    governing store answers segments cache = some (doc, split) := by
  apply (resolveThrough_eq_some _ _ _ _).mpr
  refine ⟨longest.within, readable, fun longer above inside other => ?_⟩
  exact consistent.not_readable (longest.last longer above inside) other

theorem nothing_governs (unstored : ∀ split, ¬ Longest content segments split) :
    governing store answers segments cache = none := by
  cases resolved : governing store answers segments cache with
  | none => rfl
  | some found =>
    obtain ⟨doc, split⟩ := found
    obtain ⟨within, readable, -⟩ := (resolveThrough_eq_some _ _ _ _).mp resolved
    obtain ⟨octets, held, -⟩ := consistent.holds_of_readable readable
    have stored : (content (candidate segments split)).isSome = true := by
      rw [held]
      rfl
    obtain ⟨longest, isLongest⟩ := exists_longest within stored
    exact absurd isLongest (unstored longest)

/-- A stored prefix that cannot be read is passed over if a shorter one can. -/
theorem shorter_governs {shorter : Nat} (longest : Longest content segments split)
    (unread : ∀ other, ¬ Readable store answers segments cache split other)
    (below : shorter < split) (readable : Readable store answers segments cache shorter doc) :
    ∃ first other, first < split ∧
      governing store answers segments cache = some (other, first) := by
  obtain ⟨first, -, within, ⟨other, given⟩, last⟩ := exists_last_hit
    (fun split => ∃ other, Readable store answers segments cache split other)
    (Nat.le_sub_one_of_lt below) ⟨doc, readable⟩
  have isShorter : first < split := by omega
  refine ⟨first, other, isShorter, (resolveThrough_eq_some _ _ _ _).mpr ?_⟩
  refine ⟨isShorter.le.trans longest.within, given, fun longer above inside found available => ?_⟩
  rcases Nat.lt_trichotomy longer split with before | rfl | after
  · exact last longer above (Nat.le_sub_one_of_lt before) ⟨found, available⟩
  · exact unread found available
  · exact consistent.not_readable (longest.last longer after inside) found available

end Reading

/-- The longest stored prefix governs a request, and none in its place, if and only if its
document can be read or no shorter one can. -/
theorem longest_prefix_governs_iff (store : SpecStore) (content : Str → Option Octets)
    (answers : Nat → Except RsError Body) (segments : List Str) (cache : Cache)
    (consistent : Consistent store content answers segments cache) :
    LongestGoverns store content answers segments cache ↔
      ∀ split, Longest content segments split →
        (∃ doc, Readable store answers segments cache split doc) ∨
          ∀ shorter doc, shorter < split → ¬ Readable store answers segments cache shorter doc := by
  constructor
  · intro governs split longest
    by_cases read : ∃ doc, Readable store answers segments cache split doc
    · exact .inl read
    · refine .inr fun shorter doc below readable => ?_
      obtain ⟨first, other, isShorter, resolved⟩ :=
        shorter_governs consistent longest (not_exists.mp read) below readable
      exact governs.closed split longest first other isShorter resolved
  · intro condition
    refine
      { governs := fun split doc longest readable =>
          ⟨consistent.holds_of_readable readable, governs_of_longest consistent longest readable⟩
        nothing := nothing_governs consistent
        closed := ?_ }
    intro split longest shorter doc below resolved
    rcases condition split longest with ⟨other, readable⟩ | none_
    · rw [governs_of_longest consistent longest readable] at resolved
      cases resolved
      exact absurd below (Nat.lt_irrefl _)
    · exact none_ shorter doc below ((resolveThrough_eq_some _ _ _ _).mp resolved).2.1

/-! A store of templates with `/a`, which is open, and `/a/b`. -/

def nestedContent (path : Str) : Option Octets :=
  if path = "/a" then
    some (Tagged.codec.encode openTemplate)
  else if path = "/a/b" then
    some (Tagged.codec.encode plainTemplate)
  else
    none

/-- The storage answers what it holds, but for the read of `/a/b`. -/
def nestedAnswers (longest : Except RsError Body) : Nat → Except RsError Body
  | 0 => .error (.notFound "no such file")
  | 1 => .ok (Body.fromBytes (Tagged.codec.encode openTemplate) .json)
  | _ => longest

def nestedSegments : List Str := ["a", "b"]

def served : Except RsError Body :=
  .ok (Body.fromBytes (Tagged.codec.encode plainTemplate) .json)

def busy : Except RsError Body :=
  .error (.internal "the disk is busy")

theorem candidate_nested (split : Nat) : candidate nestedSegments (split + 2) = "/a/b" := by
  rw [candidate, List.take_of_length_le (by simp [nestedSegments])]
  decide

/-- Either answer to the read of `/a/b` is consistent with what is stored. -/
theorem nested_consistent {longest : Except RsError Body}
    (faithful : longest = served ∨ longest = busy) :
    Consistent templates nestedContent (nestedAnswers longest) nestedSegments [] where
  cachedAbsence := nofun
  cachedDocument := nofun
  absent := by
    intro split unstored
    match split with
    | 0 => exact ⟨_, rfl⟩
    | 1 => exact absurd unstored (by decide +kernel)
    | split + 2 =>
      rw [candidate_nested] at unstored
      exact absurd unstored (by decide +kernel)
  present := by
    intro split body octets answered streamed
    match split with
    | 0 => cases answered
    | 1 =>
      cases answered
      cases streamed
      rfl
    | split + 2 =>
      rw [candidate_nested]
      rcases faithful with rfl | rfl
      · cases answered
        cases streamed
        rfl
      · cases answered
  reported := by
    intro split e answered absent
    match split with
    | 0 => decide
    | 1 => cases answered
    | split + 2 =>
      rcases faithful with rfl | rfl
      · cases answered
      · cases answered
        cases absent

theorem nested_longest : Longest nestedContent nestedSegments 2 :=
  ⟨by decide, by decide +kernel, fun longer above within => absurd within (Nat.not_le.mpr above)⟩

/-- With an empty cache and a storage that answers, the document at `/a/b` governs. -/
theorem nested_prefix_governs :
    Consistent templates nestedContent (nestedAnswers served) nestedSegments [] ∧
      LongestGoverns templates nestedContent (nestedAnswers served) nestedSegments [] ∧
      governing templates (nestedAnswers served) nestedSegments [] = some (plainTemplate, 2) := by
  have consistent := nested_consistent (.inl rfl)
  have readable : Readable templates (nestedAnswers served) nestedSegments [] 2 plainTemplate :=
    .inr ⟨rfl, _, _, _, rfl, rfl, by decide +kernel⟩
  have governs : LongestGoverns templates nestedContent (nestedAnswers served) nestedSegments [] := by
    refine (longest_prefix_governs_iff _ _ _ _ _ consistent).mpr ?_
    intro split longest
    cases longest.unique nested_longest
    exact .inl ⟨plainTemplate, readable⟩
  exact ⟨consistent, governs, (governs.governs 2 plainTemplate nested_longest readable).2⟩

/-- While the disk is busy, the open document at `/a` governs in the place of the one at
`/a/b`. -/
theorem open_prefix_governs_unread_spec :
    Consistent templates nestedContent (nestedAnswers busy) nestedSegments [] ∧
      Longest nestedContent nestedSegments 2 ∧
      governing templates (nestedAnswers busy) nestedSegments [] = some (openTemplate, 1) ∧
      ¬ LongestGoverns templates nestedContent (nestedAnswers busy) nestedSegments [] := by
  have resolved : governing templates (nestedAnswers busy) nestedSegments [] =
      some (openTemplate, 1) := by
    decide +kernel
  refine ⟨nested_consistent (.inr rfl), nested_longest, resolved, fun governs => ?_⟩
  exact governs.closed 2 nested_longest 1 openTemplate (by decide) resolved

end Rs2Runtime.Services.SpecResolution
