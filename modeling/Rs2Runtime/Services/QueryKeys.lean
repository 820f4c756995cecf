import Rs2Runtime.Services.QueryTemplate

/-!
Contract: the members of a substituted object.

Owns:
- which members of a template object are dropped, and the keys of the others;
- the substituted object as the insertion of its members one after another;
- when every literal member is kept with its value and no two members become one.
-/

namespace Rs2Runtime.Services.QueryTemplate

open Text Data Json

/-! ## Members -/

section

variable (params : Object)

/-- An optional placeholder whose parameter is missing. -/
def lacks (placeholder : Placeholder) : Bool :=
  placeholder.optional && (params.get? placeholder.name).isNone

/-- A condition that does not hold. -/
def fails (placeholder : Placeholder) : Bool :=
  match params.get? placeholder.name with
  | some value => !isTruthy value
  | none => placeholder.optional

/-- A node that takes the member it belongs to away: an optional placeholder that lacks its
parameter, or an object whose condition does not hold. -/
def isDropped : Value → Bool
  | .str s => (parseExact s).any (lacks params)
  | .obj fields =>
    (((OrderedMap.get? fields conditionKey).bind Value.asStr).bind parseExact).any (fails params)
  | .null | .bool _ | .num _ | .arr _ => false

/-- The key a member gets: its own, or the text of its parameter. -/
def memberKey (key : Str) : Option Str :=
  match parseExact key with
  | none => some key
  | some placeholder => (params.get? placeholder.name).bind Value.asStr

/-- The keys of the members that are not dropped, in the order of the template. -/
def memberKeys (fields : List (Str × Value)) : List Str :=
  fields.filterMap fun member =>
    if member.1 = conditionKey ∨ isDropped params member.2 = true then none
    else memberKey params member.1

end

/-- Every literal member that is not dropped is there with its substituted value, and there are
as many members as are not dropped. -/
structure KeepsMembers (codec : Codec) (quote : Value → Except RsError Str) (params : Object)
    (fields : List (Str × Value)) (out : Object) : Prop where
  literal : ∀ key node value, (key, node) ∈ fields → key ≠ conditionKey →
    parseExact key = none → substNode codec quote params node = .ok (.value value) →
      out.get? key = some value
  apart : out.length = (memberKeys params fields).length

/-! ## The members of a substituted object -/

section

variable {codec : Codec} {quote : Value → Except RsError Str} {params : Object}

theorem isDropped_of_substText {s : Str} {result : Subst}
    (substituted : substText quote params s = .ok result) :
    isDropped params (.str s) = true ↔ result = .elide := by
  rw [isDropped]
  unfold substText at substituted
  cases exact : parseExact s with
  | none =>
    simp only [exact] at substituted
    refine ⟨nofun, fun elided => ?_⟩
    rw [elided] at substituted
    split at substituted
    · obtain ⟨text, -, impossible⟩ := Outcome.map_eq_ok.mp substituted
      cases impossible
    · cases substituted
  | some placeholder =>
    simp only [exact] at substituted
    rw [Option.any_some, lacks]
    cases given : params.get? placeholder.name with
    | some value =>
      rw [given] at substituted
      cases substituted
      simp
    | none =>
      rw [given] at substituted
      dsimp only at substituted
      split at substituted
      · next optional =>
          cases substituted
          simp [optional]
      · cases substituted

/-- Conditions drop what they do not keep. -/
theorem fails_of_keeps {fields : Object} {kept : Bool}
    (decided : keeps codec params fields = .ok kept) : isDropped params (.obj fields) = !kept := by
  rw [isDropped]
  unfold keeps at decided
  cases cond : OrderedMap.get? fields conditionKey with
  | none =>
    rw [cond] at decided
    cases decided
    rfl
  | some value =>
    rw [cond] at decided
    dsimp only at decided
    obtain ⟨placeholder, read, chosen⟩ := Outcome.bind_eq_ok.mp decided
    have exact : value.asStr.bind parseExact = some placeholder := by
      unfold conditionOf at read
      split at read
      · next found exact =>
          cases read
          exact exact
      · cases read
    rw [Option.bind_some, exact, Option.any_some, fails]
    cases given : params.get? placeholder.name with
    | some flag =>
      rw [given] at chosen
      cases chosen
      rfl
    | none =>
      rw [given] at chosen
      dsimp only at chosen
      split at chosen
      · next optional =>
          cases chosen
          exact optional
      · cases chosen

variable {node : Value} {key : Str} {rest : List (Str × Value)}

theorem isDropped_of_substNode {result : Subst}
    (substituted : substNode codec quote params node = .ok result) :
    isDropped params node = true ↔ result = .elide := by
  cases node with
  | null | bool _ | num _ =>
    cases substituted
    exact ⟨nofun, nofun⟩
  | arr items =>
    rw [substNode] at substituted
    obtain ⟨out, -, finished⟩ := Outcome.bind_eq_ok.mp substituted
    cases finished
    exact ⟨nofun, nofun⟩
  | str s => exact isDropped_of_substText substituted
  | obj fields =>
    rw [substNode] at substituted
    obtain ⟨kept, decided, members⟩ := Outcome.bind_eq_ok.mp substituted
    have dropped : isDropped params (.obj fields) = !kept := fails_of_keeps decided
    rw [dropped]
    cases kept with
    | true =>
      obtain ⟨out, -, finished⟩ := Outcome.bind_eq_ok.mp members
      cases finished
      exact ⟨nofun, nofun⟩
    | false =>
      cases members
      exact ⟨fun _ => rfl, fun _ => rfl⟩

theorem memberKey_of_keyOf {found : Option Str} (computed : keyOf codec params key = .ok found) :
    memberKey params key = found := by
  unfold keyOf at computed
  unfold memberKey
  cases exact : parseExact key with
  | none =>
    simp only [exact] at computed
    cases computed
    rfl
  | some placeholder =>
    simp only [exact] at computed
    dsimp only
    cases given : params.get? placeholder.name with
    | none =>
      rw [given] at computed
      dsimp only at computed
      split at computed
      · cases computed
        rfl
      · cases computed
    | some value =>
      rw [given] at computed
      cases value with
      | str text =>
        cases computed
        rfl
      | null | bool _ | num _ | arr _ | obj _ => cases computed

theorem memberKeys_cons_none
    (gone : key = conditionKey ∨ isDropped params node = true ∨ memberKey params key = none) :
    memberKeys params ((key, node) :: rest) = memberKeys params rest := by
  refine List.filterMap_cons_none ?_
  dsimp only
  split
  · rfl
  · next present =>
      obtain ⟨notCondition, notDropped⟩ := not_or.mp present
      exact (gone.resolve_left notCondition).resolve_left notDropped

theorem memberKeys_cons_some {inserted : Str} (notCondition : key ≠ conditionKey)
    (notDropped : ¬ isDropped params node = true) (keyed : memberKey params key = some inserted) :
    memberKeys params ((key, node) :: rest) = inserted :: memberKeys params rest := by
  refine List.filterMap_cons_some ?_
  dsimp only
  rw [if_neg (not_or.mpr ⟨notCondition, notDropped⟩), keyed]

/-- The members that substitution inserts, one after another. -/
structure Inserted (codec : Codec) (quote : Value → Except RsError Str) (params : Object)
    (fields : List (Str × Value)) (out result members : Object) : Prop where
  extends_ : result = out.extend members
  keys : members.map Prod.fst = memberKeys params fields
  literal : ∀ key node value, (key, node) ∈ fields → key ≠ conditionKey →
    parseExact key = none → substNode codec quote params node = .ok (.value value) →
      (key, value) ∈ members

/-- A member that is passed over leaves what is inserted. -/
theorem Inserted.skip {out result members : Object}
    (inserted : Inserted codec quote params rest out result members)
    (gone : key = conditionKey ∨ isDropped params node = true ∨ memberKey params key = none) :
    Inserted codec quote params ((key, node) :: rest) out result members where
  extends_ := inserted.extends_
  keys := by rw [inserted.keys, memberKeys_cons_none gone]
  literal := by
    intro other child value member notCondition plain substituted
    rcases List.mem_cons.mp member with same | later
    · cases same
      rcases gone with condition | dropped | keyless
      · exact absurd condition notCondition
      · cases (isDropped_of_substNode substituted).mp dropped
      · rw [memberKey, plain] at keyless
        cases keyless
    · exact inserted.literal other child value later notCondition plain substituted

theorem inserted_of_substFields {fields : List (Str × Value)} {out result : Object}
    (substituted : substFields codec quote params fields out = .ok result) :
    ∃ members, Inserted codec quote params fields out result members := by
  induction fields generalizing out with
  | nil =>
    cases substituted
    exact ⟨[], rfl, rfl, nofun⟩
  | cons member rest ih =>
    obtain ⟨key, node⟩ := member
    rw [substFields] at substituted
    split at substituted
    · next condition =>
        obtain ⟨members, inserted⟩ := ih substituted
        exact ⟨members, inserted.skip (.inl condition)⟩
    · next notCondition =>
        obtain ⟨computed, keyed, after⟩ := Outcome.bind_eq_ok.mp substituted
        have isKey := memberKey_of_keyOf keyed
        cases computed with
        | none =>
          obtain ⟨members, inserted⟩ := ih after
          exact ⟨members, inserted.skip (.inr (.inr isKey))⟩
        | some computed =>
          obtain ⟨outcome, node_, remaining⟩ := Outcome.bind_eq_ok.mp after
          have dropped := isDropped_of_substNode node_
          cases outcome with
          | elide =>
            obtain ⟨members, inserted⟩ := ih remaining
            exact ⟨members, inserted.skip (.inr (.inl (dropped.mpr rfl)))⟩
          | value value =>
            have notDropped : ¬ isDropped params node = true := fun isDropped =>
              nomatch dropped.mp isDropped
            obtain ⟨members, inserted⟩ := ih remaining
            refine ⟨(computed, value) :: members, inserted.extends_, ?_, ?_⟩
            · rw [memberKeys_cons_some notCondition notDropped isKey, List.map_cons,
                inserted.keys]
            · intro other child found member notCondition plain given
              rcases List.mem_cons.mp member with same | later
              · cases same
                rw [memberKey, plain] at isKey
                cases isKey
                rw [node_] at given
                cases given
                exact List.mem_cons_self
              · exact List.mem_cons_of_mem _
                  (inserted.literal other child found later notCondition plain given)

/-- Substitution of an object keeps its members if and only if the keys of those that are not
dropped differ. -/
theorem keeps_members_iff (codec : Codec) (quote : Value → Except RsError Str) (params : Object)
    (fields : List (Str × Value)) (out : Object)
    (substituted : substNode codec quote params (.obj fields) = .ok (.value (.obj out))) :
    KeepsMembers codec quote params fields out ↔ (memberKeys params fields).Nodup := by
  rw [substNode] at substituted
  obtain ⟨kept, -, after⟩ := Outcome.bind_eq_ok.mp substituted
  cases kept with
  | false => cases after
  | true =>
    obtain ⟨result, members_, finished⟩ := Outcome.bind_eq_ok.mp after
    cases finished
    obtain ⟨members, inserted⟩ := inserted_of_substFields members_
    have isList : out = OrderedMap.ofList members := inserted.extends_
    have sameLength : (memberKeys params fields).length = members.length := by
      rw [← inserted.keys, List.length_map]
    constructor
    · intro keeps_
      have length := keeps_.apart
      rw [isList, sameLength] at length
      rw [← inserted.keys]
      exact (OrderedMap.length_ofList_iff members).mp length
    · intro distinct
      rw [← inserted.keys] at distinct
      refine ⟨?_, ?_⟩
      · intro key node value member notCondition plain given
        rw [isList, OrderedMap.get?_ofList, OrderedMap.get?_reverse distinct]
        exact OrderedMap.get?_of_mem distinct
          (inserted.literal key node value member notCondition plain given)
      · rw [isList, sameLength]
        exact (OrderedMap.length_ofList_iff members).mpr distinct

end

/-! An object with a literal member and a computed one. -/

def filterFields : List (Str × Value) :=
  [("$match", .bool true), ("$\x7bfield\x7d", .bool false)]

def fieldParam (field : Str) : Object :=
  [("field", .str field)]

def noQuote (value : Value) : Except RsError Str :=
  .ok (Tagged.codec.print value)

theorem status_filter_keeps_members :
    KeepsMembers Tagged.codec noQuote (fieldParam "status") filterFields
      [("$match", .bool true), ("status", .bool false)] :=
  (keeps_members_iff Tagged.codec noQuote (fieldParam "status") filterFields _
    (by decide +kernel)).mpr (by decide +kernel)

/-- A parameter with the text of the literal key takes the literal member's place. -/
theorem match_filter_displaces_literal :
    substNode Tagged.codec noQuote (fieldParam "$match") (.obj filterFields) =
        .ok (.value (.obj [("$match", .bool false)])) ∧
      ¬ KeepsMembers Tagged.codec noQuote (fieldParam "$match") filterFields
        [("$match", .bool false)] := by
  refine ⟨by decide +kernel, fun keeps_ => ?_⟩
  have kept := keeps_.literal "$match" (.bool true) (.bool true) List.mem_cons_self (by decide)
    (by decide) rfl
  exact absurd kept (by decide)

end Rs2Runtime.Services.QueryTemplate
