import Rs2Runtime.Data.Visibility
import Rs2Runtime.Pipeline.Invariant

/-!
Contract: what the identity names `_user` and `principal` resolve to in a pipeline run.

Owns:
- the identity of a caller: extra claims under the id and the roles;
- what the placeholders of every call see under the identity names;
- when that is the caller's identity or nothing, and runs in which it is not.

Does not own: captures under the identity names, which are a specification's own choice.
-/

namespace Rs2Runtime.Pipeline

open Text Data Json

/-- The names a caller is bound under. -/
def identityNames : List Str :=
  ["_user", "principal"]

/-- What a caller is: the extra claims, and in every case the id and the roles. -/
def identity (principal : Principal) : Object :=
  ((OrderedMap.ofList principal.extra).insert "email" (.str principal.id)).insert "roles"
    (.arr (principal.roles.map Value.str))

/-- Every path from a name leads to a value of the caller's identity or to nothing. -/
def IdentityOnly (caller : Option Principal) (context : Object) (name : Str) : Prop :=
  ∀ keys value, PathPattern.resolveData context name keys = some value →
    ∃ principal, caller = some principal ∧
      PathPattern.walk (.obj (identity principal)) keys = some value

/-! ## Conditions -/

/-- No value, or null. -/
def Absent (value : Option Value) : Prop :=
  value = none ∨ value = some .null

/-- The extra claims repeat the id and the roles or say nothing about them. -/
def ClaimsAgree (principal : Principal) : Prop :=
  ∀ claim ∈ [(("email".toList : Str), Value.str principal.id),
      ("roles".toList, Value.arr (principal.roles.map Value.str))],
    (OrderedMap.ofList principal.extra).get? claim.1 = none ∨
      (OrderedMap.ofList principal.extra).get? claim.1 = some claim.2

instance (principal : Principal) : Decidable (ClaimsAgree principal) := by
  unfold ClaimsAgree
  infer_instance

/-- The names are safe at a call: outside of detached branches the claims of a known caller
agree, and for an anonymous one neither the host's variables nor the request in flight have a
value under the name; in a detached branch the request in flight has none but the caller's
identity itself. -/
def IdentitySafe (executor : Executor) (world : World) (caller : Option Principal)
    (detached : Bool) (inFlight : Message) (name : Str) : Prop :=
  match detached, caller with
  | false, some principal => ClaimsAgree principal
  | false, none =>
    Absent ((executor.initialVars.get? name).or ((requestData executor world inFlight).get? name))
  | true, caller =>
    Absent ((requestData executor world inFlight).get? name) ∨
      ∃ principal, caller = some principal ∧
        (requestData executor world inFlight).get? name = some (.obj (identity principal))

/-! ## The bound caller -/

theorem get?_userObject (principal : Principal) (key : Str) :
    OrderedMap.get? (userObject principal) key =
      ((OrderedMap.ofList principal.extra).get? key).or
        (if key = "roles" then some (.arr (principal.roles.map Value.str))
          else if key = "email" then some (.str principal.id) else none) := by
  rw [userObject, OrderedMap.get?_extend, OrderedMap.get?_ofList principal.extra,
    OrderedMap.get?_ofList, List.reverse_cons, List.reverse_singleton, List.singleton_append,
    OrderedMap.get?_cons, OrderedMap.get?_cons, OrderedMap.get?_nil]
  simp only [eq_comm]

theorem get?_identity (principal : Principal) (key : Str) :
    OrderedMap.get? (identity principal) key =
      if key = "roles" then some (.arr (principal.roles.map Value.str))
      else if key = "email" then some (.str principal.id)
      else (OrderedMap.ofList principal.extra).get? key := by
  rw [identity, OrderedMap.get?_insert, OrderedMap.get?_insert]

theorem or_some_eq_some_iff {α : Type} {found : Option α} {value : α} :
    found.or (some value) = some value ↔ found = none ∨ found = some value := by
  cases found <;> simp

/-- The bound caller is the identity exactly if no extra claim takes the place of the id or
the roles. -/
theorem userObject_eq_identity_iff (principal : Principal) :
    userObject principal = identity principal ↔ ClaimsAgree principal := by
  have email_ne_roles : ("email" : Str) ≠ "roles" := by decide
  constructor
  · intro same claim member
    have shown := congrArg (fun fields => OrderedMap.get? fields claim.1) same
    simp only [get?_userObject, get?_identity] at shown
    simp only [List.mem_cons, List.not_mem_nil, or_false] at member
    rcases member with rfl | rfl
    · rw [if_neg email_ne_roles, if_neg email_ne_roles, if_pos rfl, if_pos rfl] at shown
      exact or_some_eq_some_iff.mp shown
    · rw [if_pos rfl, if_pos rfl] at shown
      exact or_some_eq_some_iff.mp shown
  · intro agree
    have ordered : OrderedMap.Ordered (userObject principal) :=
      (OrderedMap.ordered_ofList _).extend _
    have ordered' : OrderedMap.Ordered (identity principal) :=
      ((OrderedMap.ordered_ofList _).insert _ _).insert _ _
    refine ordered.ext ordered' fun key => ?_
    rw [get?_userObject, get?_identity]
    split
    next isRoles =>
      rw [isRoles]
      exact or_some_eq_some_iff.mpr (agree _ (List.mem_cons_of_mem _ List.mem_cons_self))
    next =>
      split
      next isEmail =>
        rw [isEmail]
        exact or_some_eq_some_iff.mpr (agree _ List.mem_cons_self)
      next => exact Option.or_none

/-! ## What a name resolves to -/

theorem walk_null_filter (keys : List Str) :
    (PathPattern.walk .null keys).filter (· ≠ .null) = none := by
  cases keys <;> rfl

theorem identityOnly_iff {caller : Option Principal} {context : Object} {name : Str} :
    IdentityOnly caller context name ↔ Absent (context.get? name) ∨
      ∃ principal, caller = some principal ∧
        context.get? name = some (.obj (identity principal)) := by
  unfold IdentityOnly PathPattern.resolveData
  constructor
  · intro only
    cases found : context.get? name with
    | none => exact Or.inl (Or.inl rfl)
    | some value =>
      by_cases isNull : value = .null
      · exact Or.inl (Or.inr (by rw [isNull]))
      · have whole := only [] value (by
          rw [found]
          exact Option.filter_eq_some_iff.mpr ⟨rfl, by simpa using isNull⟩)
        obtain ⟨principal, known, same⟩ := whole
        exact Or.inr ⟨principal, known, same.symm⟩
  · intro safe keys value resolved
    rcases safe with (absent | absent) | ⟨principal, known, found⟩
    · rw [absent] at resolved
      cases resolved
    · rw [absent, Option.bind_some, walk_null_filter] at resolved
      cases resolved
    · rw [found, Option.bind_some] at resolved
      exact ⟨principal, known, (Option.filter_eq_some_iff.mp resolved).1⟩

/-! ## Runs -/

/-- What the variables hold under an identity name. -/
def boundIdentity (executor : Executor) (caller : Option Principal) (detached : Bool)
    (name : Str) : Option Value :=
  match detached, caller with
  | true, _ => none
  | false, some principal => some (.obj (userObject principal))
  | false, none => executor.initialVars.get? name

theorem get?_startVars (executor : Executor) (msg : Message) {name : Str}
    (isIdentity : name ∈ identityNames) :
    (startVars executor msg).get? name = boundIdentity executor msg.principal false name := by
  simp only [identityNames, List.mem_cons, List.not_mem_nil, or_false] at isIdentity
  have not_url : name ≠ "_url" := by
    rcases isIdentity with rfl | rfl <;> decide
  rw [startVars, OrderedMap.get?_insert, if_neg not_url]
  cases msg.principal with
  | none => rfl
  | some principal =>
    rw [bindCaller, OrderedMap.get?_insert, OrderedMap.get?_insert]
    rcases isIdentity with rfl | rfl
    · rw [if_neg (by decide), if_pos rfl]
      rfl
    · rw [if_pos rfl]
      rfl

theorem startVars_ordered (executor : Executor) (msg : Message) :
    OrderedMap.Ordered (startVars executor msg) := by
  unfold startVars bindCaller
  cases msg.principal with
  | none => exact executor.initialVarsOrdered.insert _ _
  | some principal => exact ((executor.initialVarsOrdered.insert _ _).insert _ _).insert _ _

/-- The variables keep what they hold under the identity names, and every call sees that over
the request in flight. -/
def identityContract (executor : Executor) (world : World) (caller : Option Principal) :
    Contract executor world where
  admits := fun step => ∀ capture, step.capture = some capture →
    captureName capture ∉ identityNames
  good := fun _ => True
  bound := fun detached vars vars' => vars = vars' ∧ OrderedMap.Ordered vars ∧
    ∀ name ∈ identityNames, vars.get? name = boundIdentity executor caller detached name
  shows := fun event _ => ∀ place inFlight context, event = .call place inFlight context →
    ∀ name ∈ identityNames, context.get? name =
      (boundIdentity executor caller place.detached name).or
        ((requestData executor world inFlight).get? name)
  reads := by
    rintro step _ vars _ - ⟨rfl, -⟩
    exact .refl executor world step vars
  admits_unconditional := fun _ admitted => admitted
  good_step := fun _ _ _ => trivial
  good_element := fun _ _ _ _ => trivial
  good_attempt := fun _ _ _ => trivial
  good_detach := fun _ _ => trivial
  bound_detached := ⟨rfl, OrderedMap.ordered_nil, fun _ _ => rfl⟩
  bound_capture := by
    rintro detached vars _ step capture value ⟨rfl, bound⟩ admitted captured
    refine ⟨rfl, bound.1.insert _ _, fun name isIdentity => ?_⟩
    have differ : name ≠ captureName capture := fun same =>
      admitted capture captured (same ▸ isIdentity)
    rw [OrderedMap.get?_insert, if_neg differ]
    exact bound.2 name isIdentity
  bound_merge := by
    rintro detached vars _ branch _ ⟨rfl, bound⟩ ⟨rfl, branchBound⟩
    refine ⟨rfl, bound.1.extend branch, fun name isIdentity => ?_⟩
    rw [branchBound.1.get?_extend, branchBound.2 name isIdentity, bound.2 name isIdentity]
    exact Option.or_self
  shows_call := by
    rintro place index msg vars _ - ⟨-, bound⟩ _ _ _ ⟨⟩ name isIdentity
    rw [interpolationContext, bound.1.get?_extend, bound.2 name isIdentity]
    rfl
  shows_send := by
    rintro spec place index attempt step call headers msg request _ _ _ _ _ _ _ _ rfl _ _ _ same
    cases same
  shows_retry := by
    intro place sentUnsafe sentUnsafe' _ _ _ _ same
    cases same

/-- At every call of every run, a path from an identity name leads to the caller's identity or
to nothing exactly if the name is safe there. -/
theorem identity_names_resolve_to_caller_iff (executor : Executor) (world : World)
    (spec : PipelineSpec) (msg : Message) (toStep : Option Nat)
    (uncaptured : ∀ step, Occurs step spec → ∀ capture, step.capture = some capture →
      captureName capture ∉ identityNames)
    (place : Place)
    (inFlight : Message)
    (context : Object)
    (called : .call place inFlight context ∈ (run executor world spec msg toStep).events)
    (name : Str)
    (isIdentity : name ∈ identityNames) :
    IdentityOnly msg.principal context name ↔
      IdentitySafe executor world msg.principal place.detached inFlight name := by
  have started : (identityContract executor world msg.principal).bound false
      (startVars executor msg) (startVars executor msg) :=
    ⟨rfl, startVars_ordered executor msg, fun _ => get?_startVars executor msg⟩
  have seen := (identityContract executor world msg.principal).run_shows
    ⟨uncaptured, trivial, trivial⟩ started trivial toStep called place inFlight context rfl name isIdentity
  rw [identityOnly_iff, seen]
  unfold boundIdentity IdentitySafe
  cases place.detached with
  | true => rw [Option.none_or]
  | false =>
    cases msg.principal with
    | none => simp
    | some principal =>
      dsimp only
      rw [← userObject_eq_identity_iff]
      simp [Absent]

/-! ## Calls by three callers -/

/-- A pipeline that calls a resource below the caller's address. -/
def ownFolder : PipelineSpec :=
  .serial none [Step.callTo "GET" "/folders/$\x7b_user.email\x7d"]

/-- The same call in a branch nobody waits for. -/
def ownFolderAside : PipelineSpec :=
  { ownFolder with mode := .tee }

def ann : Principal where
  id := "ann"
  roles := ["U"]
  kind := "user"
  extra := []

/-- A request with a query and a JSON body. -/
def folderRequest (caller : Option Principal) (pathAndQuery : Str) (body : Value) : Message :=
  { Message.request .post pathAndQuery "acme" "trace" with
    principal := caller
    body := some (Body.fromJson Tagged.codec body) }

/-- The addresses that the calls of a trace see. -/
def addressesSeen (events : List Event) : List (Option Value) :=
  events.filterMap fun event =>
    match event with
    | .call _ _ context => some (PathPattern.resolveData context "_user" ["email".toList])
    | _ => none

theorem ann_resolves_to_ann :
    IdentityOnly (some ann)
      (interpolationContext (.plain .noRetry) .succeeding (folderRequest (some ann) "/p?_user=root" .null)
        (startVars (.plain .noRetry) (folderRequest (some ann) "/p?_user=root" .null)))
      "_user" :=
  (identity_names_resolve_to_caller_iff (.plain .noRetry) .succeeding ownFolder
    (folderRequest (some ann) "/p?_user=root" .null) none
    (by
      intro step occurs capture captured
      cases occurs with
      | here member =>
        cases List.mem_singleton.mp member
        cases captured
      | nested member below _ =>
        cases List.mem_singleton.mp member
        cases below)
    ((Place.root.attempt 1).step 0) (folderRequest (some ann) "/p?_user=root" .null) _
    (by decide +kernel) "_user" (by decide)).mpr
    (show ClaimsAgree ann by decide +kernel)

/-- An extra claim replaces the id, an anonymous request supplies an identity, and so does the
body in a detached branch. -/
theorem identity_taken_from_elsewhere :
    ownFolder.validate (fun _ => none) = [] ∧
    addressesSeen (run (.plain .noRetry) .succeeding ownFolder
      (folderRequest (some { ann with extra := [("email", .str "root")] }) "/p" .null)
      none).events = [some (.str "root")] ∧
    addressesSeen (run (.plain .noRetry) .succeeding ownFolder
      (folderRequest none "/p" (.object [("_user", .object [("email", .str "root")])]))
      none).events = [some (.str "root")] ∧
    ownFolderAside.validate (fun _ => none) = [] ∧
    addressesSeen (run (.plain .noRetry) .succeeding ownFolderAside
      (folderRequest (some ann) "/p" (.object [("_user", .object [("email", .str "root")])]))
      none).events = [some (.str "root")] := by
  decide +kernel

end Rs2Runtime.Pipeline
