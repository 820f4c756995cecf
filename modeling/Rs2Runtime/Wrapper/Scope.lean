import Rs2Runtime.Text.Template
import Rs2Runtime.Wrapper.Access

/-!
Contract: what a path-scoped grant stands for.

Owns:
- the grants of a role specification, and acceptance as one of them admitting the request;
- the values a caller has for the placeholders of a pattern;
- when a pattern is filled as it is written: every placeholder once, by its own value;
- that further roles never lose a caller access.
-/

namespace Rs2Runtime.Wrapper

open Text Data Json

/-! ## Grants -/

/-- A role, with the path pattern that scopes it. -/
abbrev Grant := Str × Option Str

/-- The grants that the tokens of a role specification spell. -/
def grantsOf : List Str → List Grant
  | [] => []
  | [role] => [(role, none)]
  | role :: next :: rest =>
    if next.head? = some '/' then
      (role, some next) :: grantsOf rest
    else
      (role, none) :: grantsOf (next :: rest)

/-- The grants of a role specification. -/
def grants (spec : Str) : List Grant :=
  grantsOf (words spec)

/-- Whether a grant admits a caller to a path. -/
def admits (principal : Option Principal) (path : Str) (grant : Grant) : Bool :=
  holdsRole principal grant.1 &&
    match grant.2 with
    | none => true
    | some pattern => inScope (resolveScope principal pattern) path

theorem satisfiesTokens_eq_any (principal : Option Principal) (path : Str) (tokens : List Str) :
    satisfiesTokens principal path tokens = (grantsOf tokens).any (admits principal path) := by
  induction tokens using grantsOf.induct with
  | case1 => rfl
  | case2 role => simp [satisfiesTokens, grantsOf, admits]
  | case3 role next rest isScope ih =>
    rw [satisfiesTokens, grantsOf, if_pos isScope, if_pos isScope, ih,
      List.any_cons]
    rfl
  | case4 role next rest noScope ih =>
    rw [satisfiesTokens, grantsOf, if_neg noScope, if_neg noScope, ih,
      List.any_cons]
    simp [admits]

/-- A role specification accepts exactly if one of its grants admits the request. -/
theorem satisfiesRoleSpec_iff (spec : Str) (msg : Message) :
    satisfiesRoleSpec spec msg = true ↔
      ∃ grant ∈ grants spec, admits msg.principal msg.url.servicePath grant = true := by
  rw [satisfiesRoleSpec, satisfiesTokens_eq_any, List.any_eq_true]
  rfl

/-! ## Scopes -/

variable {path : Str} {template : List Piece} {principal : Option Principal}

/-- The segments of a scope begin the segments of every path in it. -/
theorem segments_of_inScope {scope : Str} (inside : inScope scope path = true) :
    segments scope <+: segments path := by
  simp only [inScope, Bool.or_eq_true, decide_eq_true_eq, List.isPrefixOf_iff_prefix] at inside
  rcases inside with rfl | ⟨rest, rfl⟩
  · exact List.prefix_rfl
  · rw [List.append_assoc, List.singleton_append, segments_append_slash]
    exact List.prefix_append _ _

/-- The values a caller has for placeholders, in the order they are put in. -/
def claimValues : Option Principal → List (Str × Str)
  | none => []
  | some p => ("email", p.id) :: p.extra.filterMap fun claim =>
    match claim.2 with
    | .str text => some (claim.1, text)
    | _ => none

/-- One claim put in for its placeholder. -/
def putIn (resolved : Str) (claim : Str × Str) : Str :=
  replaceAll (braced claim.1) claim.2 resolved

theorem resolveScope_eq_foldl (principal : Option Principal) (pattern : Str) :
    resolveScope principal pattern = (claimValues principal).foldl putIn pattern := by
  cases principal with
  | none => rfl
  | some p =>
    rw [resolveScope, claimValues, List.foldl_cons, List.foldl_filterMap]
    refine congrArg (fun f => p.extra.foldl f _) ?_
    funext resolved claim
    cases claim.2 <;> rfl

/-- Putting in the claims one after another replaces exactly the placeholders of the
template. -/
def FillsOnce : List (Str × Str) → Str → List Piece → Prop
  | [], _, _ => True
  | (name, value) :: claims, resolved, template =>
    parts (braced name) resolved = between name template ∧
      FillsOnce claims (putIn resolved (name, value)) (fillHole name value template)

/-- Every placeholder of a pattern was replaced by the caller's own value for it, once; none
of these values is empty; and the path begins with the segments of the result. -/
structure Sound (principal : Option Principal) (pattern path : Str) : Prop where
  once : FillsOnce (claimValues principal) pattern (pieces pattern)
  filled : resolveScope principal pattern =
    written (fillAll (claimValues principal) (pieces pattern))
  valued : ∀ name ∈ holes (pieces pattern),
    ∃ value ∈ (claimValues principal).lookup name, value ≠ []
  within : segments (resolveScope principal pattern) <+: segments path

/-- In the order in which the claims are put in, the placeholder of a claim is written nowhere
in the pattern as filled so far but at the pattern's own placeholders. -/
def Settles : List (Str × Str) → List Piece → Prop
  | [], _ => True
  | (name, value) :: claims, template =>
    OnlyHoles name template ∧ Settles claims (fillHole name value template)

/-- The pattern settles, and every placeholder has a value that is not empty. -/
def FillsCleanly (principal : Option Principal) (pattern : Str) : Prop :=
  Settles (claimValues principal) (pieces pattern) ∧
    ∀ name ∈ holes (pieces pattern), ∃ value ∈ (claimValues principal).lookup name, value ≠ []

def decideSettles : (claims : List (Str × Str)) → (template : List Piece) →
    Decidable (Settles claims template)
  | [], _ => isTrue trivial
  | (name, value) :: claims, template =>
    have := decideSettles claims (fillHole name value template)
    inferInstanceAs (Decidable (OnlyHoles name template ∧
      Settles claims (fillHole name value template)))

instance (principal : Option Principal) (pattern : Str) :
    Decidable (FillsCleanly principal pattern) :=
  have := decideSettles (claimValues principal) (pieces pattern)
  inferInstanceAs (Decidable (_ ∧ _))

/-- One claim that replaces exactly its placeholders fills them. -/
theorem putIn_eq_written {name value resolved : Str}
    (exact_ : parts (braced name) resolved = between name template) :
    putIn resolved (name, value) = written (fillHole name value template) := by
  rw [putIn, replaceAll_eq_intercalate, exact_, written_fillHole]

theorem fillsOnce_iff (claims : List (Str × Str))
    (plain : ∀ hole ∈ holes template, hole.all notBrace = true) :
    FillsOnce claims (written template) template ↔ Settles claims template := by
  induction claims generalizing template with
  | nil => exact Iff.rfl
  | cons claim claims ih =>
    obtain ⟨name, value⟩ := claim
    have later : ∀ hole ∈ holes (fillHole name value template), hole.all notBrace = true :=
      fun hole member => plain hole (holes_fillHole_subset member)
    rw [FillsOnce, Settles, parts_written_iff plain]
    refine and_congr_right fun only => ?_
    rw [putIn_eq_written ((parts_written_iff plain).mpr only)]
    exact ih later

theorem foldl_putIn_eq_written {claims : List (Str × Str)}
    (plain : ∀ hole ∈ holes template, hole.all notBrace = true)
    (settles : Settles claims template) :
    claims.foldl putIn (written template) = written (fillAll claims template) := by
  induction claims generalizing template with
  | nil => rw [fillAll_nil, List.foldl_nil]
  | cons claim claims ih =>
    obtain ⟨name, value⟩ := claim
    have step : putIn (written template) (name, value) = written (fillHole name value template) :=
      putIn_eq_written ((parts_written_iff plain).mpr settles.1)
    rw [List.foldl_cons, step, fillAll_cons]
    exact ih (fun hole member => plain hole (holes_fillHole_subset member))
      settles.2

/-- An admitted path shows a sound grant exactly if the pattern fills cleanly. -/
theorem sound_iff_fillsCleanly {pattern : Str}
    (inside : inScope (resolveScope principal pattern) path = true) :
    Sound principal pattern path ↔ FillsCleanly principal pattern := by
  have plain := holes_pieces_plain pattern
  have once := fillsOnce_iff (claimValues principal) plain
  rw [written_pieces] at once
  constructor
  · exact fun sound => ⟨once.mp sound.once, sound.valued⟩
  · intro clean
    refine ⟨once.mpr clean.1, ?_, clean.2, segments_of_inScope inside⟩
    have filled := foldl_putIn_eq_written plain clean.1
    rw [written_pieces] at filled
    rw [resolveScope_eq_foldl, filled]

/-- Where a role specification accepts a request through path-scoped grants only, there is such
a grant, and all of them are sound exactly if all their patterns fill cleanly. -/
theorem scoped_acceptance_sound_iff (spec : Str) (msg : Message)
    (accepted : satisfiesRoleSpec spec msg = true)
    (onlyScoped : ∀ grant ∈ grants spec,
      admits msg.principal msg.url.servicePath grant = true → grant.2 ≠ none) :
    (∃ role pattern, (role, some pattern) ∈ grants spec ∧
      admits msg.principal msg.url.servicePath (role, some pattern) = true) ∧
    ((∀ role pattern, (role, some pattern) ∈ grants spec →
        admits msg.principal msg.url.servicePath (role, some pattern) = true →
          Sound msg.principal pattern msg.url.servicePath) ↔
      ∀ role pattern, (role, some pattern) ∈ grants spec →
        admits msg.principal msg.url.servicePath (role, some pattern) = true →
          FillsCleanly msg.principal pattern) := by
  have inside : ∀ {role pattern : Str},
      admits msg.principal msg.url.servicePath (role, some pattern) = true →
        inScope (resolveScope msg.principal pattern) msg.url.servicePath = true :=
    fun admitted => (Bool.and_eq_true_iff.mp admitted).2
  constructor
  · obtain ⟨⟨role, scope⟩, member, admitted⟩ := (satisfiesRoleSpec_iff spec msg).mp accepted
    cases scope with
    | none => exact (onlyScoped _ member admitted rfl).elim
    | some pattern => exact ⟨role, pattern, member, admitted⟩
  · constructor
    · intro sound role pattern member admitted
      exact (sound_iff_fillsCleanly (inside admitted)).mp (sound role pattern member admitted)
    · intro clean role pattern member admitted
      exact (sound_iff_fillsCleanly (inside admitted)).mpr (clean role pattern member admitted)

/-! ## Requests by three callers -/

def caller (id : Str) (extra : Object) : Principal where
  id := id
  roles := ["U"]
  kind := "user"
  extra := extra

/-- A request to a service path. -/
def requestBy (principal : Option Principal) (servicePath : Str) : Message :=
  { Message.request .get servicePath "acme" "trace" with
    principal := principal
    url := ⟨servicePath, [], [], servicePath⟩ }

theorem own_folder_sound :
    (∃ role pattern, (role, some pattern) ∈ grants "U /user/\x7bemail\x7d" ∧
      admits (some (caller "ann" [])) "/user/ann/notes" (role, some pattern) = true) ∧
    ((∀ role pattern, (role, some pattern) ∈ grants "U /user/\x7bemail\x7d" →
        admits (some (caller "ann" [])) "/user/ann/notes" (role, some pattern) = true →
          Sound (some (caller "ann" [])) pattern "/user/ann/notes") ↔
      ∀ role pattern, (role, some pattern) ∈ grants "U /user/\x7bemail\x7d" →
        admits (some (caller "ann" [])) "/user/ann/notes" (role, some pattern) = true →
          FillsCleanly (some (caller "ann" [])) pattern) :=
  scoped_acceptance_sound_iff "U /user/\x7bemail\x7d"
    (requestBy (some (caller "ann" [])) "/user/ann/notes") (by decide +kernel) (by decide +kernel)

theorem not_sound {pattern : Str} (inside : inScope (resolveScope principal pattern) path = true)
    (unclean : ¬ FillsCleanly principal pattern) : ¬ Sound principal pattern path :=
  fun sound => unclean ((sound_iff_fillsCleanly inside).mp sound)

/-- A caller whose id is written like another claim's placeholder gets that claim's folder, a
caller with an empty claim gets every folder behind a doubled slash, and an anonymous one gets
what is written like a placeholder. -/
theorem unsound_scopes_accept :
    (satisfiesRoleSpec "U /acc/\x7bemail\x7d"
        (requestBy (some (caller "\x7baccount\x7d" [("account", .str "7")])) "/acc/7") = true ∧
      ¬ Sound (some (caller "\x7baccount\x7d" [("account", .str "7")]))
        "/acc/\x7bemail\x7d" "/acc/7") ∧
    (satisfiesRoleSpec "U /acc/\x7baccount\x7d"
        (requestBy (some (caller "ann" [("account", .str [])])) "/acc//7/notes") = true ∧
      ¬ Sound (some (caller "ann" [("account", .str [])]))
        "/acc/\x7baccount\x7d" "/acc//7/notes") ∧
    (satisfiesRoleSpec "all /acc/\x7baccount\x7d"
        (requestBy none "/acc/\x7baccount\x7d") = true ∧
      ¬ Sound none "/acc/\x7baccount\x7d" "/acc/\x7baccount\x7d") :=
  ⟨⟨by decide +kernel, not_sound (by decide +kernel) (by decide +kernel)⟩,
    ⟨by decide +kernel, not_sound (by decide +kernel) (by decide +kernel)⟩,
    ⟨by decide +kernel, not_sound (by decide +kernel) (by decide +kernel)⟩⟩

/-! ## Callers with more roles -/

section MoreRoles

def withFurtherRoles (roles : List Str) (p : Principal) : Principal :=
  { p with roles := p.roles ++ roles }

/-- The request, made by a caller who has further roles as well. -/
def withRoles (msg : Message) (roles : List Str) : Message :=
  { msg with principal := msg.principal.map (withFurtherRoles roles) }

variable {msg : Message} (roles : List Str)

theorem holdsRole_further {role : Str} (held : holdsRole principal role = true) :
    holdsRole (principal.map (withFurtherRoles roles)) role = true := by
  cases principal with
  | none => exact held
  | some p =>
    unfold holdsRole at held ⊢
    by_cases everyone : role = "all"
    · exact if_pos everyone
    · rw [if_neg everyone] at held
      apply (if_neg everyone).trans
      by_cases anyone : role = "authenticated"
      · exact if_pos anyone
      · rw [if_neg anyone] at held
        apply (if_neg anyone).trans
        exact List.contains_iff_mem.mpr (List.mem_append_left roles (List.contains_iff_mem.mp held))

theorem satisfiesRoleSpec_withRoles {spec : Str} (accepted : satisfiesRoleSpec spec msg = true) :
    satisfiesRoleSpec spec (withRoles msg roles) = true := by
  obtain ⟨grant, member, admitted⟩ := (satisfiesRoleSpec_iff spec msg).mp accepted
  apply (satisfiesRoleSpec_iff spec _).mpr
  refine ⟨grant, member, ?_⟩
  -- a scope is filled in from the caller's id and claims, which stay
  have scope : ∀ pattern, resolveScope (withRoles msg roles).principal pattern =
      resolveScope msg.principal pattern := by
    intro pattern
    unfold withRoles
    cases msg.principal <;> rfl
  unfold admits at admitted ⊢
  rw [Bool.and_eq_true] at admitted ⊢
  refine ⟨holdsRole_further roles admitted.1, ?_⟩
  simp only [scope]
  exact admitted.2

theorem checkRoleSpec_withRoles {access : Value} {action : Action}
    (passed : checkRoleSpec access action msg = .ok ()) :
    checkRoleSpec access action (withRoles msg roles) = .ok () := by
  have known : (withRoles msg roles).principal.isSome = msg.principal.isSome :=
    Option.isSome_map
  unfold checkRoleSpec at passed ⊢
  by_cases internal : msg.source = .system
  · exact if_pos internal
  · rw [if_neg internal] at passed
    apply (if_neg internal).trans
    cases access with
    | str policy =>
      dsimp only at passed ⊢
      rw [known]
      exact passed
    | obj spec =>
      dsimp only at passed ⊢
      by_cases accepted : satisfiesRoleSpec (resolveRole spec action) msg = true
      · exact if_pos (satisfiesRoleSpec_withRoles roles accepted)
      · rw [if_neg accepted] at passed
        split at passed <;> cases passed
    | null | bool | num | arr => cases passed

end MoreRoles

/-- A request that a mount lets through is let through as well when its caller has further
roles. -/
theorem further_roles_keep_access (msg : Message) (mount : Mount) (roles : List Str)
    (passed : checkAccess msg mount = .ok ()) :
    checkAccess (withRoles msg roles) mount = .ok () := by
  have checked : ∀ action, checkMountAccess msg mount action = .ok () →
      checkMountAccess (withRoles msg roles) mount action = .ok () := by
    intro action admitted
    unfold checkMountAccess at admitted ⊢
    cases configured : mount.config.get? "access" with
    | some access =>
      rw [configured] at admitted
      exact checkRoleSpec_withRoles roles admitted
    | none =>
      rw [configured] at admitted
      dsimp only at admitted
      split at admitted <;> cases admitted
  unfold checkAccess at passed ⊢
  by_cases deferred : mount.service = "pipeline" ∧ !isInstructionPath msg.url
  · exact if_pos deferred
  · rw [if_neg deferred] at passed
    apply (if_neg deferred).trans
    exact checked _ passed

theorem editors_further_role_keeps_access :
    checkAccess
      (withRoles
        { Message.request .put "/notes/a" "acme" "trace" with
          principal := some ⟨"ann", ["E"], "user", []⟩ } ["U"])
      ⟨"/notes", "data", .obj [("access", .obj [("write", .str "E")])]⟩ = .ok () :=
  further_roles_keep_access _ _ ["U"] (by decide)

end Rs2Runtime.Wrapper
