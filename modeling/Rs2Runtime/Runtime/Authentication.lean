import Rs2Runtime.Data.Chain
import Rs2Runtime.Services.ApiKeys

/-!
Contract: authentication of a request by the services of its tenant.

Owns:
- what each authenticator makes of a request: tokens of the authentication service, keys of the
  service for API keys;
- the chain, which stops at the first acceptance or refusal;
- when the order of the chain does not matter.

## Where the order matters

A token that has three parts is refused at once by the first authentication service, whether or
not it was signed for another one.  Two mounts with secrets of their own therefore answer by
their order, and so do two mounts for API keys with stores of their own.
-/

namespace Rs2Runtime.Runtime

open Text Data Json Rs2Runtime.Services

/-- What one authenticator made of a request. -/
inductive AuthOutcome where
  | pass
  | unrecognised (error : RsError)
  | authenticated (principal : Principal) (expires : Option Nat)

/-- A mount that authenticates requests, with what it checks them against. -/
inductive Authenticator where
  | auth (jwtSecret : Str)
  | apikeys (service : ApiKeysService)
      (data : Option ((dataset key : Str) → Except RsError Value))

/-- An accepted credential: its principal and expiry; none for an anonymous request. -/
abbrev Accepted := Option (Principal × Option Nat)

/-- Two results that cannot be told apart but for the text of a refusal. -/
def Alike {α : Type} (left right : Except RsError α) : Prop :=
  (∃ e e', left = .error e ∧ right = .error e') ∨ ∃ value, left = .ok value ∧ right = .ok value

section Chain

variable (digests : Digests) (readClaims : Octets → Option Claims) (now : Nat)

namespace Authenticator

/-- Whether the request carries a credential that a browser attaches by itself. -/
def ambientCredential (authenticator : Authenticator) (msg : Message) : Bool :=
  match authenticator with
  | .auth _ => hasAuthCookie msg
  | .apikeys _ _ => false

def tryAuthenticate (authenticator : Authenticator) (msg : Message) :
    Except RsError AuthOutcome :=
  match authenticator with
  | .auth jwtSecret =>
    match extractToken msg with
    | none => .ok .pass
    | some token =>
      if (token.splitOn '.').length ≠ 3 then
        .ok (.unrecognised (.unauthorized "malformed token"))
      else
        (verify digests readClaims now token jwtSecret).map fun claims =>
          .authenticated (principalOf claims).1 (some (principalOf claims).2)
  | .apikeys service data =>
    match bearerKey msg with
    | none => .ok .pass
    | some key =>
      (service.checkKey digests now data key).map fun accepted =>
        .authenticated accepted.1 (some accepted.2)

end Authenticator

/-- Whether any authenticator sees an ambient credential. -/
def hasAmbientCredential (authenticators : List Authenticator) (msg : Message) : Bool :=
  authenticators.any fun authenticator => authenticator.ambientCredential msg

def authenticateFrom (msg : Message) (unrecognised : Option RsError) :
    List Authenticator → Except RsError Accepted
  | [] =>
    match unrecognised with
    | some e => .error e
    | none => .ok none
  | authenticator :: rest =>
    match authenticator.tryAuthenticate digests readClaims now msg with
    | .error e => .error e
    | .ok .pass => authenticateFrom msg unrecognised rest
    | .ok (.unrecognised e) => authenticateFrom msg (some (unrecognised.getD e)) rest
    | .ok (.authenticated principal expires) => .ok (some (principal, expires))

/-- Run the chain of authenticators. -/
def authenticate (authenticators : List Authenticator) (msg : Message) :
    Except RsError Accepted :=
  authenticateFrom digests readClaims now msg none authenticators

/-! ## What decides -/

/-- The verdict that ends the chain. -/
def decision : Except RsError AuthOutcome → Option (Except RsError Accepted)
  | .error e => some (.error e)
  | .ok (.authenticated principal expires) => some (.ok (some (principal, expires)))
  | .ok .pass => none
  | .ok (.unrecognised _) => none

/-- The decision of one authenticator on a request. -/
def Authenticator.decides (msg : Message) (authenticator : Authenticator) :
    Option (Except RsError Accepted) :=
  decision (authenticator.tryAuthenticate digests readClaims now msg)

/-- Whether an authenticator saw a credential that it could not use. -/
def Authenticator.Baffled (msg : Message) (authenticator : Authenticator) : Prop :=
  ∃ e, authenticator.tryAuthenticate digests readClaims now msg = .ok (.unrecognised e)

/-- The first decision of a chain is its result. -/
theorem authenticateFrom_of_decided {msg : Message} {unrecognised : Option RsError}
    {authenticators : List Authenticator} {result : Except RsError Accepted}
    (decided : authenticators.findSome? (Authenticator.decides digests readClaims now msg) =
      some result) :
    authenticateFrom digests readClaims now msg unrecognised authenticators = result := by
  induction authenticators generalizing unrecognised with
  | nil => cases decided
  | cons authenticator rest ih =>
    rw [List.findSome?_cons, Authenticator.decides] at decided
    unfold authenticateFrom
    cases tried : authenticator.tryAuthenticate digests readClaims now msg with
    | error e =>
      rw [tried] at decided
      exact Option.some.inj decided
    | ok outcome =>
      rw [tried] at decided
      cases outcome with
      | pass => exact ih decided
      | unrecognised e => exact ih decided
      | authenticated principal expires => exact Option.some.inj decided

/-- A chain without a decision refuses what baffled it, and otherwise lets the request pass
anonymously. -/
theorem authenticateFrom_of_undecided {msg : Message} {unrecognised : Option RsError}
    {authenticators : List Authenticator}
    (undecided : authenticators.findSome? (Authenticator.decides digests readClaims now msg) =
      none) :
    ((∃ e, unrecognised = some e) ∨
        (∃ authenticator ∈ authenticators,
          authenticator.Baffled digests readClaims now msg)) ∧
        (∃ e, authenticateFrom digests readClaims now msg unrecognised authenticators =
          .error e) ∨
      unrecognised = none ∧
        (∀ authenticator ∈ authenticators,
          ¬ authenticator.Baffled digests readClaims now msg) ∧
        authenticateFrom digests readClaims now msg unrecognised authenticators = .ok none := by
  induction authenticators generalizing unrecognised with
  | nil =>
    cases unrecognised with
    | none => exact .inr ⟨rfl, fun _ member => (by cases member), rfl⟩
    | some e => exact .inl ⟨.inl ⟨e, rfl⟩, e, rfl⟩
  | cons authenticator rest ih =>
    rw [List.findSome?_cons, Authenticator.decides] at undecided
    unfold authenticateFrom
    cases tried : authenticator.tryAuthenticate digests readClaims now msg with
    | error e =>
      rw [tried] at undecided
      cases undecided
    | ok outcome =>
      rw [tried] at undecided
      cases outcome with
      | authenticated principal expires => cases undecided
      | pass =>
        have clear : ¬ authenticator.Baffled digests readClaims now msg := by
          rintro ⟨e, same⟩
          rw [tried] at same
          cases same
        rcases @ih unrecognised undecided with
          ⟨seen, refused⟩ | ⟨none_, quiet, passed⟩
        · refine .inl ⟨seen.imp id ?_, refused⟩
          rintro ⟨other, member, baffled⟩
          exact ⟨other, List.mem_cons_of_mem _ member, baffled⟩
        · refine .inr ⟨none_, ?_, passed⟩
          intro other member
          rcases List.mem_cons.mp member with rfl | later
          · exact clear
          · exact quiet other later
      | unrecognised e =>
        rcases @ih (some (unrecognised.getD e)) undecided with
          ⟨_, refused⟩ | ⟨none_, _, _⟩
        · exact .inl ⟨.inr ⟨authenticator, List.mem_cons_self, e, tried⟩, refused⟩
        · cases none_

/-! ## The order of the chain -/

/-- Every two orders of the chain have the same result. -/
def OrderFree (authenticators : List Authenticator) (msg : Message) : Prop :=
  ∀ first second : List Authenticator,
    first.Perm authenticators → second.Perm authenticators →
      Alike (authenticate digests readClaims now first msg)
        (authenticate digests readClaims now second msg)

theorem alike_of_chain {msg : Message} {first second : List Authenticator}
    (permuted : first.Perm second)
    (related : Option.Rel Alike
      (first.findSome? (Authenticator.decides digests readClaims now msg))
      (second.findSome? (Authenticator.decides digests readClaims now msg))) :
    Alike (authenticate digests readClaims now first msg)
      (authenticate digests readClaims now second msg) := by
  unfold authenticate
  cases decided : first.findSome? (Authenticator.decides digests readClaims now msg) with
  | some result =>
    rw [decided] at related
    cases decided' : second.findSome? (Authenticator.decides digests readClaims now msg) with
    | none =>
      rw [decided'] at related
      cases related
    | some result' =>
      rw [decided'] at related
      rw [authenticateFrom_of_decided digests readClaims now decided,
        authenticateFrom_of_decided digests readClaims now decided']
      cases related with
      | some same => exact same
  | none =>
    rw [decided] at related
    cases decided' : second.findSome? (Authenticator.decides digests readClaims now msg) with
    | some result' =>
      rw [decided'] at related
      cases related
    | none =>
      -- Which authenticators were baffled does not depend on the order.
      have left := @authenticateFrom_of_undecided digests readClaims now msg none _ decided
      have right := @authenticateFrom_of_undecided digests readClaims now msg none _ decided'
      rcases left with ⟨seen, e, refused⟩ | ⟨-, quiet, passed⟩
      · rcases right with ⟨-, e', refused'⟩ | ⟨-, quiet, -⟩
        · exact .inl ⟨e, e', refused, refused'⟩
        · rcases seen with ⟨_, absent⟩ | ⟨authenticator, member, baffled⟩
          · cases absent
          · exact absurd baffled (quiet authenticator (permuted.mem_iff.mp member))
      · rcases right with ⟨seen, -⟩ | ⟨-, -, passed'⟩
        · rcases seen with ⟨_, absent⟩ | ⟨authenticator, member, baffled⟩
          · cases absent
          · exact absurd baffled (quiet authenticator (permuted.mem_iff.mpr member))
        · exact .inr ⟨none, passed, passed'⟩

/-- The order does not matter exactly when the authenticators that decide agree. -/
theorem orderFree_iff_agree (authenticators : List Authenticator) (msg : Message) :
    OrderFree digests readClaims now authenticators msg ↔
      Chain.Agree (Authenticator.decides digests readClaims now msg) Alike authenticators := by
  constructor
  · intro free link member other member' found found' answers answers'
    obtain ⟨rest, first⟩ := Chain.exists_perm_cons member
    obtain ⟨rest', second⟩ := Chain.exists_perm_cons member'
    have same := free _ _ first second
    have decided : (link :: rest).findSome?
        (Authenticator.decides digests readClaims now msg) = some found := by
      rw [List.findSome?_cons_of_isSome (by rw [answers]; rfl), answers]
    have decided' : (other :: rest').findSome?
        (Authenticator.decides digests readClaims now msg) = some found' := by
      rw [List.findSome?_cons_of_isSome (by rw [answers']; rfl), answers']
    unfold authenticate at same
    rw [authenticateFrom_of_decided digests readClaims now decided,
      authenticateFrom_of_decided digests readClaims now decided'] at same
    exact same
  · intro agree first second permuted permuted'
    exact alike_of_chain digests readClaims now (permuted.trans permuted'.symm)
      (Chain.orderFree_of_agree agree first second permuted permuted')

/-! ## Verdicts on one credential -/

/-- What a token is taken for. -/
def tokenVerdict (token secret : Str) : Except RsError Accepted :=
  (verify digests readClaims now token secret).map fun claims =>
    some ((principalOf claims).1, some (principalOf claims).2)

/-- What a key is taken for. -/
def keyVerdict (service : ApiKeysService)
    (data : Option ((dataset key : Str) → Except RsError Value)) (key : Str) :
    Except RsError Accepted :=
  (service.checkKey digests now data key).map fun accepted => some (accepted.1, some accepted.2)

/-- The token of a request that an authentication service takes for its own. -/
def ownToken (msg : Message) : Option Str :=
  (extractToken msg).filter fun token => (token.splitOn '.').length = 3

/-- Whether a result is an acceptance. -/
def Accepts {α : Type} (result : Except RsError α) : Prop :=
  ∃ value, result = .ok value

theorem decision_map {α : Type} (checked : Except RsError α) (principal : α → Principal)
    (expires : α → Option Nat) :
    decision (checked.map fun value => .authenticated (principal value) (expires value)) =
      some (checked.map fun value => some (principal value, expires value)) := by
  cases checked <;> rfl

theorem decides_auth (msg : Message) (secret : Str) :
    Authenticator.decides digests readClaims now msg (.auth secret) =
      (ownToken msg).map fun token => tokenVerdict digests readClaims now token secret := by
  show decision (Authenticator.tryAuthenticate digests readClaims now (.auth secret) msg) = _
  unfold Authenticator.tryAuthenticate ownToken
  dsimp only
  cases extractToken msg with
  | none => rfl
  | some token =>
    dsimp only
    by_cases parts : (token.splitOn '.').length = 3
    · rw [if_neg (not_not.mpr parts), Option.filter_some, if_pos (by simpa using parts)]
      exact decision_map _ _ _
    · rw [if_pos parts, Option.filter_some, if_neg (by simpa using parts)]
      rfl

theorem decides_apikeys (msg : Message) (service : ApiKeysService)
    (data : Option ((dataset key : Str) → Except RsError Value)) :
    Authenticator.decides digests readClaims now msg (.apikeys service data) =
      (bearerKey msg).map fun key => keyVerdict digests now service data key := by
  show decision (Authenticator.tryAuthenticate digests readClaims now (.apikeys service data) msg)
    = _
  unfold Authenticator.tryAuthenticate
  dsimp only
  cases bearerKey msg with
  | none => rfl
  | some key => exact decision_map _ _ _

/-- Two secrets take a token for the same exactly when both or neither verify it. -/
theorem alike_tokenVerdict_iff (token secret secret' : Str) :
    Alike (tokenVerdict digests readClaims now token secret)
        (tokenVerdict digests readClaims now token secret') ↔
      (Accepts (verify digests readClaims now token secret) ↔
        Accepts (verify digests readClaims now token secret')) := by
  unfold tokenVerdict
  cases verified : verify digests readClaims now token secret with
  | error e =>
    cases verified' : verify digests readClaims now token secret' with
    | error e' => exact iff_of_true (.inl ⟨e, e', rfl, rfl⟩) (iff_of_false nofun nofun)
    | ok claims' =>
      refine iff_of_false ?_ fun same => ?_
      · rintro (⟨_, _, -, accepted⟩ | ⟨_, refused, -⟩)
        · cases accepted
        · cases refused
      · obtain ⟨_, accepted⟩ := same.mpr ⟨claims', rfl⟩
        cases accepted
  | ok claims =>
    cases verified' : verify digests readClaims now token secret' with
    | error e' =>
      refine iff_of_false ?_ fun same => ?_
      · rintro (⟨_, _, accepted, -⟩ | ⟨_, -, refused⟩)
        · cases accepted
        · cases refused
      · obtain ⟨_, accepted⟩ := same.mp ⟨claims, rfl⟩
        cases accepted
    | ok claims' =>
      have same := verify_unique verified verified'
      subst same
      exact iff_of_true (.inr ⟨_, rfl, rfl⟩) (iff_of_true ⟨_, rfl⟩ ⟨_, rfl⟩)

/-- The services agree on the credential of a request: those for tokens on whether the token
verifies under their secrets, those for keys on what the key stands for, and where the credential
has both forms, each of the one kind with each of the other. -/
structure CredentialAgreed (authenticators : List Authenticator) (msg : Message) : Prop where
  tokens : ∀ token, ownToken msg = some token → ∀ secret secret',
    .auth secret ∈ authenticators → .auth secret' ∈ authenticators →
      (Accepts (verify digests readClaims now token secret) ↔
        Accepts (verify digests readClaims now token secret'))
  keys : ∀ key, bearerKey msg = some key → ∀ service data service' data',
    .apikeys service data ∈ authenticators → .apikeys service' data' ∈ authenticators →
      Alike (service.checkKey digests now data key) (service'.checkKey digests now data' key)
  mixed : ∀ token key, ownToken msg = some token → bearerKey msg = some key →
    ∀ secret service data,
      .auth secret ∈ authenticators → .apikeys service data ∈ authenticators →
        Alike ((verify digests readClaims now token secret).map principalOf)
          (service.checkKey digests now data key)

/-- The form in which the chain reports an accepted credential. -/
def accepted (found : Principal × Nat) : Accepted :=
  some (found.1, some found.2)

theorem accepted_injective : Function.Injective accepted := by
  rintro ⟨principal, expires⟩ ⟨principal', expires'⟩ same
  simp only [accepted, Option.some.injEq, Prod.mk.injEq] at same
  rw [same.1, same.2]

theorem alike_map_iff {α β : Type} {f : α → β} (injective : Function.Injective f)
    {left right : Except RsError α} : Alike (left.map f) (right.map f) ↔ Alike left right := by
  constructor
  · rintro (⟨e, e', failed, failed'⟩ | ⟨value, done, done'⟩)
    · cases left with
      | ok value => cases failed
      | error first =>
        cases right with
        | ok value => cases failed'
        | error second => exact .inl ⟨first, second, rfl, rfl⟩
    · obtain ⟨first, rfl, same⟩ := Outcome.map_eq_ok.mp done
      obtain ⟨second, rfl, same'⟩ := Outcome.map_eq_ok.mp done'
      exact .inr ⟨first, rfl, by rw [injective (same.trans same'.symm)]⟩
  · rintro (⟨e, e', rfl, rfl⟩ | ⟨value, rfl, rfl⟩)
    · exact .inl ⟨e, e', rfl, rfl⟩
    · exact .inr ⟨f value, rfl, rfl⟩

theorem Alike.symm {α : Type} {left right : Except RsError α} (alike : Alike left right) :
    Alike right left := by
  rcases alike with ⟨e, e', failed, failed'⟩ | ⟨value, done, done'⟩
  · exact .inl ⟨e', e, failed', failed⟩
  · exact .inr ⟨value, done', done⟩

theorem alike_keyVerdict_iff {service service' : ApiKeysService}
    {data data' : Option ((dataset key : Str) → Except RsError Value)} {key : Str} :
    Alike (keyVerdict digests now service data key) (keyVerdict digests now service' data' key) ↔
      Alike (service.checkKey digests now data key) (service'.checkKey digests now data' key) :=
  alike_map_iff accepted_injective

theorem alike_mixed_iff {token secret key : Str} {service : ApiKeysService}
    {data : Option ((dataset key : Str) → Except RsError Value)} :
    Alike (tokenVerdict digests readClaims now token secret)
        (keyVerdict digests now service data key) ↔
      Alike ((verify digests readClaims now token secret).map principalOf)
        (service.checkKey digests now data key) := by
  have report : tokenVerdict digests readClaims now token secret =
      ((verify digests readClaims now token secret).map principalOf).map accepted := by
    unfold tokenVerdict
    cases verify digests readClaims now token secret <;> rfl
  rw [report]
  exact alike_map_iff accepted_injective

theorem agree_iff_credentialAgreed (authenticators : List Authenticator) (msg : Message) :
    Chain.Agree (Authenticator.decides digests readClaims now msg) Alike authenticators ↔
      CredentialAgreed digests readClaims now authenticators msg := by
  constructor
  · intro agree
    constructor
    · intro token own secret secret' member member'
      rw [← alike_tokenVerdict_iff]
      exact agree _ member _ member' _ _ (by rw [decides_auth, own]; rfl)
        (by rw [decides_auth, own]; rfl)
    · intro key bearer service data service' data' member member'
      rw [← alike_keyVerdict_iff]
      exact agree _ member _ member' _ _ (by rw [decides_apikeys, bearer]; rfl)
        (by rw [decides_apikeys, bearer]; rfl)
    · intro token key own bearer secret service data member member'
      rw [← alike_mixed_iff]
      exact agree _ member _ member' _ _ (by rw [decides_auth, own]; rfl)
        (by rw [decides_apikeys, bearer]; rfl)
  · intro agreed link member other member' found found' answers answers'
    -- Two services decide on one token, on one key, or on a credential with both forms.
    cases link with
    | auth secret =>
      rw [decides_auth] at answers
      obtain ⟨token, own, rfl⟩ := Option.map_eq_some_iff.mp answers
      cases other with
      | auth secret' =>
        rw [decides_auth, own] at answers'
        cases answers'
        rw [alike_tokenVerdict_iff]
        exact agreed.tokens token own secret secret' member member'
      | apikeys service data =>
        rw [decides_apikeys] at answers'
        obtain ⟨key, bearer, rfl⟩ := Option.map_eq_some_iff.mp answers'
        rw [alike_mixed_iff]
        exact agreed.mixed token key own bearer secret service data member member'
    | apikeys service data =>
      rw [decides_apikeys] at answers
      obtain ⟨key, bearer, rfl⟩ := Option.map_eq_some_iff.mp answers
      cases other with
      | auth secret =>
        rw [decides_auth] at answers'
        obtain ⟨token, own, rfl⟩ := Option.map_eq_some_iff.mp answers'
        apply Alike.symm
        rw [alike_mixed_iff]
        exact agreed.mixed token key own bearer secret service data member' member
      | apikeys service' data' =>
        rw [decides_apikeys, bearer] at answers'
        cases answers'
        rw [alike_keyVerdict_iff]
        exact agreed.keys key bearer service data service' data' member member'

/-- The order of the authenticators does not matter to a request exactly when they agree on its
credential. -/
theorem authenticator_order_free_iff (authenticators : List Authenticator) (msg : Message) :
    OrderFree digests readClaims now authenticators msg ↔
      CredentialAgreed digests readClaims now authenticators msg :=
  (orderFree_iff_agree digests readClaims now authenticators msg).trans
    (agree_iff_credentialAgreed digests readClaims now authenticators msg)

end Chain

/-! ## Two secrets -/

/-- Digests that show the key they were made with, and octets as their own text. -/
def openDigests : Digests where
  codec := Tagged.codec
  hmacSha512 := fun key _ => key
  hmacSha256 := fun key _ => key
  encode64 := fromUtf8Lossy
  decode64 := fun text => some (utf8 text)

def sessionClaims : Claims := ⟨"ann", "U", "user", 0, 3600, []⟩

/-- A token with the signature of the secret `b`. -/
def signedByB : Message :=
  { Message.request .get "/notes" "acme" "t" with
    headers := [("authorization", "Bearer o1;3;algs5;HS512.claims.b")] }

/-- Of two authentication services with secrets of their own, the first one refuses the tokens of
the second. -/
theorem second_secret_depends_on_order :
    ¬ OrderFree openDigests (fun _ => some sessionClaims) 100 [.auth "a", .auth "b"] signedByB := by
  intro free
  have same := free [.auth "a", .auth "b"] [.auth "b", .auth "a"] (List.Perm.refl _)
    (List.Perm.swap _ _ [])
  have refused : authenticate openDigests (fun _ => some sessionClaims) 100
      [.auth "a", .auth "b"] signedByB = .error (.unauthorized "invalid token signature") := by
    decide +kernel
  have taken : authenticate openDigests (fun _ => some sessionClaims) 100
      [.auth "b", .auth "a"] signedByB = .ok (some (⟨"ann", ["U"], "user", []⟩, some 3600)) := by
    decide +kernel
  rw [refused, taken] at same
  rcases same with ⟨_, _, -, failed⟩ | ⟨_, failed, -⟩
  · cases failed
  · cases failed

end Rs2Runtime.Runtime
