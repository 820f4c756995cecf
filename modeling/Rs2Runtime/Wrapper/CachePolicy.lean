import Rs2Runtime.Json.Double
import Rs2Runtime.Message.Headers
import Rs2Runtime.Text.Escaping
import Rs2Runtime.Wrapper.Access

/-!
Contract: the caching policy of a mount.

Owns:
- reading of a mount's `caching` member, with its defaults;
- whether anyone may read a mount, as the policy sees it;
- the header lines that a policy writes, and when they call a response public.
-/

namespace Rs2Runtime.Wrapper

open Text Data Json

inductive CacheMode where
  | noStore
  | revalidate
  | cache
  deriving DecidableEq, Repr

structure CachePolicy where
  mode : CacheMode
  maxAgeSeconds : Nat
  public_ : Bool
  immutable : Bool
  deriving DecidableEq, Repr

/-! ## Reading -/

def CacheMode.named (name : Str) : Option CacheMode :=
  if name = "noStore" then some .noStore
  else if name = "revalidate" then some .revalidate
  else if name = "cache" then some .cache
  else none

/-- A mode is named by a text, or by an object with nothing under the name. -/
def CacheMode.read : Value → Option CacheMode
  | .str name => named name
  | .obj [(name, .null)] => named name
  | _ => none

def readU64 : Value → Option Nat
  | .num number => number.asU64
  | _ => none

/-- A value that is read where it is present. -/
def orDefault {α : Type} (read : Value → Option α) (absent : α) : Option Value → Option α
  | some value => read value
  | none => some absent

namespace CachePolicy

def default : CachePolicy where
  mode := .noStore
  maxAgeSeconds := 0
  public_ := false
  immutable := false

/-- A policy from its fields, in their order. -/
def ofFields (mode maxAgeSeconds public_ immutable : Option Value) : Option CachePolicy := do
  let mode ← orDefault CacheMode.read default.mode mode
  let maxAgeSeconds ← orDefault readU64 default.maxAgeSeconds maxAgeSeconds
  let public_ ← orDefault Value.asBool default.public_ public_
  let immutable ← orDefault Value.asBool default.immutable immutable
  return ⟨mode, maxAgeSeconds, public_, immutable⟩

/-- A policy is written as an object, or as an array of its fields. -/
def read : Value → Option CachePolicy
  | .obj (fields : Object) =>
    ofFields (fields.get? "mode") (fields.get? "maxAgeSeconds") (fields.get? "public")
      (fields.get? "immutable")
  | .arr items =>
    if items.length ≤ 4 then ofFields items[0]? items[1]? items[2]? items[3]? else none
  | _ => none

def fromConfig (value : Option Value) : CachePolicy :=
  (value.bind read).getD default

/-- Whether a mount's read surface is anonymously readable. -/
def mountIsOpenlyReadable (mountConfig : Value) : Bool :=
  match mountConfig.get? "access" with
  | none => true
  | some (.str policy) => policy = "open"
  | some (.obj spec) => (roleMember spec "read").getD "all" = "all"
  | some _ => false

/-! ## Application -/

/-- The header line of a policy under a scope. -/
def line (policy : CachePolicy) (scope : Str) : Str :=
  match policy.mode with
  | .noStore => "no-store"
  | .revalidate => scope ++ (", no-cache" : Str)
  | .cache =>
    scope ++ (", max-age=" : Str) ++ natStr policy.maxAgeSeconds ++
      (if policy.immutable then (", immutable" : Str) else [])

/-- A response that the policy leaves alone. -/
def Keeps (resp : Message) : Prop :=
  (resp.header "cache-control").isSome ∨ (resp.headers.first "set-cookie").isSome

instance (resp : Message) : Decidable (Keeps resp) :=
  inferInstanceAs (Decidable (_ ∨ _))

def apply (policy : CachePolicy) (resp : Message) (openlyReadable : Bool) : Message :=
  if Keeps resp then
    resp
  else
    let clamped := policy.public_ && !openlyReadable
    let scope : Str := if policy.public_ && !clamped then "public" else "private"
    let marked := resp.setHeader "cache-control" (policy.line scope)
    if (clamped || !policy.public_) && policy.mode ≠ .noStore then
      appendHeaderValue marked "vary" "authorization, cookie"
    else
      marked

/-! ## What is called public -/

/-- The response's `Cache-Control` holds `public`. -/
def MarkedPublic (resp : Message) : Prop :=
  (resp.header "cache-control").any (contains "public") = true

instance (resp : Message) : Decidable (MarkedPublic resp) :=
  inferInstanceAs (Decidable (_ = _))

/-- The policy calls responses of an openly readable mount public. -/
def Publishes (policy : CachePolicy) (openlyReadable : Bool) : Prop :=
  policy.mode ≠ .noStore ∧ policy.public_ = true ∧ openlyReadable = true

instance (policy : CachePolicy) (openlyReadable : Bool) :
    Decidable (policy.Publishes openlyReadable) :=
  inferInstanceAs (Decidable (_ ∧ _ ∧ _))

theorem isVisibleAscii_line (policy : CachePolicy) {scope : Str}
    (visible : isVisibleAscii scope = true) : isVisibleAscii (policy.line scope) = true := by
  unfold line
  cases policy.mode with
  | noStore => exact (by decide : isVisibleAscii ("no-store" : Str) = true)
  | revalidate =>
    show isVisibleAscii (scope ++ _) = true
    rw [isVisibleAscii_append, visible]
    decide
  | cache =>
    dsimp only
    rw [isVisibleAscii_append, isVisibleAscii_append, isVisibleAscii_append, visible,
      isVisibleAscii_natStr]
    cases policy.immutable <;> decide

/-- A line that calls a response private does not call it public. -/
theorem contains_line_private (policy : CachePolicy) :
    contains "public" (policy.line "private") = false := by
  unfold line
  cases policy.mode with
  | noStore => exact (by decide : contains "public" ("no-store" : Str) = false)
  | revalidate => exact (by decide : contains "public" ("private, no-cache" : Str) = false)
  | cache =>
    rw [← Bool.not_eq_true, contains_iff_within]
    intro inside
    -- No letter of the line is the last one of the word.
    have member : 'c' ∈ ("private" : Str) ++ (", max-age=" : Str) ++ natStr policy.maxAgeSeconds ++
        (if policy.immutable then (", immutable" : Str) else []) :=
      inside.subset (by decide : 'c' ∈ ("public" : Str))
    rcases List.mem_append.mp member with front | back
    · rcases List.mem_append.mp front with head | digits
      · exact absurd head (by decide)
      · exact absurd (isDigit_of_mem_natStr digits) (by decide)
    · cases immutable : policy.immutable with
      | false => simp [immutable] at back
      | true =>
        rw [immutable] at back
        exact absurd back (by decide)

theorem contains_line_public (policy : CachePolicy) :
    contains "public" (policy.line "public") = true ↔ policy.mode ≠ .noStore := by
  have starts (rest : Str) : contains "public" (("public" : Str) ++ rest) = true :=
    (contains_iff_within _ _).mpr ⟨[], rest, rfl⟩
  unfold line
  cases policy.mode with
  | noStore =>
    have bare : contains "public" ("no-store" : Str) ≠ true := by decide
    exact ⟨fun marked => absurd marked bare, fun stored => absurd rfl stored⟩
  | revalidate => exact ⟨nofun, fun _ => starts _⟩
  | cache =>
    dsimp only
    rw [List.append_assoc, List.append_assoc]
    exact ⟨nofun, fun _ => starts _⟩

/-- The header that a policy writes. -/
theorem header_apply {resp : Message} (untouched : ¬ Keeps resp) (policy : CachePolicy)
    (openlyReadable : Bool) :
    (policy.apply resp openlyReadable).header "cache-control" =
      some (policy.line (if policy.public_ && openlyReadable then "public" else "private")) := by
  have scope : (policy.public_ && !(policy.public_ && !openlyReadable)) =
      (policy.public_ && openlyReadable) := by
    cases policy.public_ <;> cases openlyReadable <;> rfl
  have visible : isVisibleAscii
      (if policy.public_ && openlyReadable then ("public" : Str) else "private") = true := by
    split <;> decide
  unfold apply
  rw [if_neg untouched]
  dsimp only
  rw [scope]
  split
  · rw [header_appendHeaderValue_of_ne (by decide),
      header_setHeader_self (isVisibleAscii_line policy visible)]
  · exact header_setHeader_self (isVisibleAscii_line policy visible) _ _

theorem isOk_apply (policy : CachePolicy) (resp : Message) (openlyReadable : Bool) :
    (policy.apply resp openlyReadable).isOk = resp.isOk := by
  have status : (policy.apply resp openlyReadable).status = resp.status := by
    unfold apply
    dsimp only
    split_ifs <;> simp only [status_appendHeaderValue, status_setHeader]
  unfold Message.isOk
  rw [status]

/-- A response is called public by itself, or by a policy that publishes it. -/
theorem markedPublic_apply_iff (policy : CachePolicy) (resp : Message) (openlyReadable : Bool) :
    MarkedPublic (policy.apply resp openlyReadable) ↔
      MarkedPublic resp ∨ ¬ Keeps resp ∧ policy.Publishes openlyReadable := by
  by_cases kept : Keeps resp
  · have same : policy.apply resp openlyReadable = resp := if_pos kept
    rw [same]
    exact ⟨.inl, fun marked => marked.resolve_right fun both => both.1 kept⟩
  · have bare : ¬ MarkedPublic resp := by
      have absent : resp.header "cache-control" = none := by
        simpa using fun present => kept (.inl present)
      unfold MarkedPublic
      rw [absent]
      exact Bool.false_ne_true
    unfold MarkedPublic at bare ⊢
    rw [header_apply kept, Option.any_some]
    cases both : policy.public_ && openlyReadable with
    | false =>
      rw [if_neg Bool.false_ne_true, contains_line_private]
      refine ⟨nofun, ?_⟩
      rintro (marked | ⟨-, -, isPublic, readable⟩)
      · exact absurd marked bare
      · rw [isPublic, readable] at both
        cases both
    | true =>
      obtain ⟨isPublic, readable⟩ := Bool.and_eq_true_iff.mp both
      rw [if_pos rfl, contains_line_public]
      exact ⟨fun stored => .inr ⟨kept, stored, isPublic, readable⟩,
        fun marked => (marked.resolve_left bare).2.1⟩

end CachePolicy

end Rs2Runtime.Wrapper
