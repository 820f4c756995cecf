import Rs2Runtime.Services.QueryTemplate

/-!
Contract: what the values of parameters can change in a substituted query.

Owns:
- the outline of a query: everything of it that is decided by which parameters are present, by
  conditions and by computed keys;
- filling an outline with values, each in its place;
- substitution as filling of the outline, for one and for two assignments of parameters.

Does not own: collisions of computed keys with other members.

## Why an outline

Substitution decides and copies in one pass.  Taking the decisions apart shows what they read: the
outline sees of a parameter only whether it is present, whether it is truthy where it is a
condition, and its text where it is a key.  Every other use of a value copies it, or the text the
adapter quotes it as, into a place that the outline has fixed.
-/

namespace Rs2Runtime.Services.QueryTemplate

open Text Data Json

/-! ## Outlines -/

/-- A piece of a text: literal, or the place of a quoted value. -/
inductive Fragment where
  | literal (text : Str)
  | quoted (name : Str)
  deriving DecidableEq, Repr

/-- A query with places for values. -/
inductive Outline where
  | exact (name : Str)
  | text (fragments : List Fragment)
  | leaf (value : Value)
  | arr (items : List Outline)
  | obj (fields : List (Str × Outline))

/-- What decisions see of an assignment of parameters. -/
structure Shape where
  present : Str → Bool
  truthy : Str → Bool
  key : Str → Option Str

def Shape.of (params : Object) : Shape where
  present := fun name => (params.get? name).isSome
  truthy := fun name => (params.get? name).any isTruthy
  key := fun name => (params.get? name).bind Value.asStr

@[simp]
theorem Shape.of_present (params : Object) (name : Str) :
    (Shape.of params).present name = (params.get? name).isSome := rfl

@[simp]
theorem Shape.of_truthy (params : Object) (name : Str) :
    (Shape.of params).truthy name = (params.get? name).any isTruthy := rfl

@[simp]
theorem Shape.of_key (params : Object) (name : Str) :
    (Shape.of params).key name = (params.get? name).bind Value.asStr := rfl

section Outlining

variable (shape : Shape)

/-- The fragments of a text; none where a placeholder does not close or a required parameter is
missing. -/
def outlineTokens : List Token → Option (List Fragment)
  | [] => some []
  | .literal text :: rest => (outlineTokens rest).map (.literal text :: ·)
  | .embedded placeholder :: rest =>
    if shape.present placeholder.name then
      (outlineTokens rest).map (.quoted placeholder.name :: ·)
    else if placeholder.optional then
      outlineTokens rest
    else
      none
  | .positional digits :: rest =>
    if shape.present digits then
      (outlineTokens rest).map (.quoted digits :: ·)
    else
      none
  | .unclosed :: _ => none

/-- The outline of a text; some none where it is elided. -/
def outlineText (s : Str) : Option (Option Outline) :=
  match parseExact s with
  | some placeholder =>
    if shape.present placeholder.name then
      some (some (.exact placeholder.name))
    else if placeholder.optional then
      some none
    else
      none
  | none =>
    if '$' ∈ s then
      (outlineTokens shape (tokens s)).map fun fragments => some (.text fragments)
    else
      some (some (.leaf (.str s)))

def outlineKeeps (fields : Object) : Option Bool :=
  match fields.get? conditionKey with
  | none => some true
  | some cond =>
    match cond.asStr.bind parseExact with
    | none => none
    | some placeholder =>
      if shape.present placeholder.name then
        some (shape.truthy placeholder.name)
      else if placeholder.optional then
        some false
      else
        none

def outlineKey (key : Str) : Option (Option Str) :=
  match parseExact key with
  | none => some (some key)
  | some placeholder =>
    if shape.present placeholder.name then
      (shape.key placeholder.name).map some
    else if placeholder.optional then
      some none
    else
      none

mutual

/-- The outline of a template's node; none where substitution fails whatever the values. -/
def outline : Value → Option (Option Outline)
  | .str s => outlineText shape s
  | .obj fields => do
      if ← outlineKeeps shape fields then
        let out ← outlineFields fields []
        return some (.obj out)
      else
        return none
  | .arr items => do
      let out ← outlineItems items
      return some (.arr out)
  | .null => some (some (.leaf .null))
  | .bool value => some (some (.leaf (.bool value)))
  | .num value => some (some (.leaf (.num value)))

def outlineFields : List (Str × Value) → (out : OrderedMap Str Outline) →
    Option (OrderedMap Str Outline)
  | [], out => some out
  | (key, node) :: rest, out =>
    if key = conditionKey then
      outlineFields rest out
    else do
      match ← outlineKey shape key with
      | none => outlineFields rest out
      | some key =>
        match ← outline node with
        | some value => outlineFields rest (out.insert key value)
        | none => outlineFields rest out

def outlineItems : List Value → Option (List Outline)
  | [] => some []
  | node :: rest => do
      let first ← outline node
      let more ← outlineItems rest
      match first with
      | some value => return value :: more
      | none => return more

end

end Outlining

/-! ## Filling -/

section Filling

variable (quote : Value → Except RsError Str) (params : Object)

/-- The text of fragments: literal text as it is, and values as they are quoted. -/
def fillFragments : List Fragment → Except RsError Str
  | [] => .ok []
  | .literal text :: rest => (fillFragments rest).map (text ++ ·)
  | .quoted name :: rest =>
    match params.get? name with
    | none => .error (missing name)
    | some value => do
        let first ← quote value
        let more ← fillFragments rest
        return first ++ more

mutual

/-- Put the values into an outline. -/
def fill : Outline → Except RsError Value
  | .exact name =>
    match params.get? name with
    | some value => .ok value
    | none => .error (missing name)
  | .text fragments => (fillFragments quote params fragments).map .str
  | .leaf value => .ok value
  | .arr items => (fillItems items).map .arr
  | .obj fields => (fillFields fields).map .obj

def fillItems : List Outline → Except RsError (List Value)
  | [] => .ok []
  | item :: rest => do
      let first ← fill item
      let more ← fillItems rest
      return first :: more

def fillFields : List (Str × Outline) → Except RsError (List (Str × Value))
  | [] => .ok []
  | (key, item) :: rest => do
      let first ← fill item
      let more ← fillFields rest
      return (key, first) :: more

end

end Filling

/-! ## Substitution fills the outline -/

section Factoring

variable {codec : Codec} {quote : Value → Except RsError Str} {params : Object}

theorem present_of_get? {name : Str} {value : Value} (given : params.get? name = some value) :
    (Shape.of params).present name = true := by
  rw [Shape.of_present, given]
  rfl

theorem not_present_of_get? {name : Str} (absent : params.get? name = none) :
    ¬ (Shape.of params).present name = true := by
  rw [Shape.of_present, absent]
  exact Bool.false_ne_true

theorem fillFragments_of_splice {s : Str} {list : List Token} {text : Str}
    (spliced : spliceTokens quote params s list = .ok text) :
    ∃ fragments, outlineTokens (Shape.of params) list = some fragments ∧
      fillFragments quote params fragments = .ok text := by
  induction list generalizing text with
  | nil => exact ⟨[], rfl, spliced⟩
  | cons token rest ih =>
    rw [spliceTokens] at spliced
    obtain ⟨first, put, splicedRest⟩ := Outcome.bind_eq_ok.mp spliced
    obtain ⟨more, remaining, joined⟩ := Outcome.bind_eq_ok.mp splicedRest
    cases joined
    obtain ⟨fragments, outlined, filled⟩ := ih remaining
    cases token with
    | literal written =>
      cases put
      refine ⟨.literal first :: fragments, ?_, ?_⟩
      · rw [outlineTokens, outlined]
        rfl
      · rw [fillFragments, filled]
        rfl
    | embedded placeholder =>
      rw [spliceToken] at put
      cases given : params.get? placeholder.name with
      | some value =>
        rw [given] at put
        dsimp only at put
        refine ⟨.quoted placeholder.name :: fragments, ?_, ?_⟩
        · rw [outlineTokens, if_pos (present_of_get? given), outlined]
          rfl
        · rw [fillFragments, given]
          dsimp only
          rw [put, filled]
          rfl
      | none =>
        rw [given] at put
        dsimp only at put
        split at put
        · next optional =>
            cases put
            refine ⟨fragments, ?_, filled⟩
            rw [outlineTokens, if_neg (not_present_of_get? given), if_pos optional, outlined]
        · cases put
    | positional digits =>
      rw [spliceToken] at put
      cases given : params.get? digits with
      | some value =>
        rw [given] at put
        dsimp only at put
        refine ⟨.quoted digits :: fragments, ?_, ?_⟩
        · rw [outlineTokens, if_pos (present_of_get? given), outlined]
          rfl
        · rw [fillFragments, given]
          dsimp only
          rw [put, filled]
          rfl
      | none =>
        rw [given] at put
        cases put
    | unclosed => cases put

/-- An outline with the values put in is what the node came to, and it is elided with the node. -/
def Matches (quote : Value → Except RsError Str) (params : Object) :
    Subst → Option Outline → Prop
  | .value value, some outline => fill quote params outline = .ok value
  | .elide, none => True
  | _, _ => False

theorem outlineText_matches {s : Str} {result : Subst}
    (substituted : substText quote params s = .ok result) :
    ∃ found, outlineText (Shape.of params) s = some found ∧
      Matches quote params result found := by
  unfold substText at substituted
  unfold outlineText
  cases exact : parseExact s with
  | some placeholder =>
    simp only [exact] at substituted ⊢
    cases given : params.get? placeholder.name with
    | some value =>
      rw [given] at substituted
      cases substituted
      refine ⟨some (.exact placeholder.name), if_pos (present_of_get? given), ?_⟩
      rw [Matches, fill, given]
    | none =>
      rw [given] at substituted
      dsimp only at substituted
      split at substituted
      · next optional =>
          cases substituted
          refine ⟨none, ?_, trivial⟩
          rw [if_neg (not_present_of_get? given), if_pos optional]
      · cases substituted
  | none =>
    simp only [exact] at substituted ⊢
    split at substituted
    · next dollar =>
        obtain ⟨text, spliced, rfl⟩ := Outcome.map_eq_ok.mp substituted
        obtain ⟨fragments, outlined, filled⟩ := fillFragments_of_splice spliced
        refine ⟨some (.text fragments), ?_, ?_⟩
        · rw [if_pos dollar, outlined]
          rfl
        · rw [Matches, fill, filled]
          rfl
    · next plain =>
        cases substituted
        exact ⟨some (.leaf (.str s)), if_neg plain, rfl⟩

theorem outlineKeeps_of_keeps {fields : Object} {kept : Bool}
    (decided : keeps codec params fields = .ok kept) :
    outlineKeeps (Shape.of params) fields = some kept := by
  unfold keeps at decided
  unfold outlineKeeps
  cases cond : OrderedMap.get? fields conditionKey with
  | none =>
    rw [cond] at decided
    cases decided
    rfl
  | some cond_ =>
    rw [cond] at decided
    dsimp only at decided ⊢
    obtain ⟨placeholder, read, chosen⟩ := Outcome.bind_eq_ok.mp decided
    unfold conditionOf at read
    cases exact : cond_.asStr.bind parseExact with
    | none =>
      rw [exact] at read
      cases read
    | some found =>
      rw [exact] at read
      cases read
      dsimp only
      cases given : params.get? placeholder.name with
      | some value =>
        rw [given] at chosen
        cases chosen
        rw [if_pos (present_of_get? given), Shape.of_truthy, given]
        rfl
      | none =>
        rw [given] at chosen
        dsimp only at chosen
        split at chosen
        · next optional =>
            cases chosen
            rw [if_neg (not_present_of_get? given), if_pos optional]
        · cases chosen

theorem outlineKey_of_keyOf {key : Str} {found : Option Str}
    (computed : keyOf codec params key = .ok found) :
    outlineKey (Shape.of params) key = some found := by
  unfold keyOf at computed
  unfold outlineKey
  cases exact : parseExact key with
  | none =>
    simp only [exact] at computed ⊢
    cases computed
    rfl
  | some placeholder =>
    simp only [exact] at computed ⊢
    cases given : params.get? placeholder.name with
    | none =>
      rw [given] at computed
      dsimp only at computed
      split at computed
      · next optional =>
          cases computed
          rw [if_neg (not_present_of_get? given), if_pos optional]
      · cases computed
    | some value =>
      rw [given] at computed
      rw [if_pos (present_of_get? given), Shape.of_key, given]
      cases value with
      | str text =>
        cases computed
        rfl
      | null | bool _ | num _ | arr _ | obj _ => cases computed

theorem fillFields_insert {outlines : OrderedMap Str Outline} {out : Object} {key : Str}
    {added : Outline} {value : Value} (filled : fillFields quote params outlines = .ok out)
    (put : fill quote params added = .ok value) :
    fillFields quote params (outlines.insert key added) = .ok (out.insert key value) := by
  induction outlines generalizing out with
  | nil =>
    cases filled
    rw [OrderedMap.insert, fillFields, put]
    rfl
  | cons entry rest ih =>
    obtain ⟨other, existing⟩ := entry
    rw [fillFields] at filled
    obtain ⟨first, head, after⟩ := Outcome.bind_eq_ok.mp filled
    obtain ⟨more, tail, joined⟩ := Outcome.bind_eq_ok.mp after
    cases joined
    rw [OrderedMap.insert, OrderedMap.insert]
    split
    · rw [fillFields, put, tail]
      rfl
    · split
      · rw [fillFields, put, fillFields, head, tail]
        rfl
      · rw [fillFields, head, ih tail]
        rfl

mutual

theorem outline_matches (node : Value) (result : Subst)
    (substituted : substNode codec quote params node = .ok result) :
    ∃ found, outline (Shape.of params) node = some found ∧ Matches quote params result found := by
  match node with
  | .str s => exact outlineText_matches substituted
  | .null | .bool _ | .num _ =>
    cases substituted
    exact ⟨_, rfl, rfl⟩
  | .arr items =>
    rw [substNode] at substituted
    obtain ⟨out, items_, result_⟩ := Outcome.bind_eq_ok.mp substituted
    cases result_
    obtain ⟨outlines, outlined, filled⟩ := outlineItems_matches items out items_
    refine ⟨some (.arr outlines), ?_, ?_⟩
    · rw [outline, outlined]
      rfl
    · rw [Matches, fill, filled]
      rfl
  | .obj fields =>
    rw [substNode] at substituted
    obtain ⟨kept, decided, members⟩ := Outcome.bind_eq_ok.mp substituted
    rw [outline, outlineKeeps_of_keeps decided]
    cases kept with
    | false =>
      cases members
      exact ⟨none, rfl, trivial⟩
    | true =>
      obtain ⟨out, fields_, result_⟩ := Outcome.bind_eq_ok.mp members
      cases result_
      obtain ⟨outlines, outlined, filled⟩ :=
        outlineFields_matches fields [] out [] fields_ rfl
      refine ⟨some (.obj outlines), ?_, ?_⟩
      · change (outlineFields (Shape.of params) fields []).bind _ = _
        rw [outlined]
        rfl
      · rw [Matches, fill, filled]
        rfl

theorem outlineFields_matches (fields : List (Str × Value)) (out result : Object)
    (outlines : OrderedMap Str Outline)
    (substituted : substFields codec quote params fields out = .ok result)
    (filled : fillFields quote params outlines = .ok out) :
    ∃ found, outlineFields (Shape.of params) fields outlines = some found ∧
      fillFields quote params found = .ok result := by
  match fields with
  | [] =>
    cases substituted
    exact ⟨outlines, rfl, filled⟩
  | (key, node) :: rest =>
    rw [substFields] at substituted
    rw [outlineFields]
    split at substituted
    · next condition =>
        rw [if_pos condition]
        exact outlineFields_matches rest out result outlines substituted filled
    · next member =>
        rw [if_neg member]
        obtain ⟨computed, keyed, after⟩ := Outcome.bind_eq_ok.mp substituted
        rw [outlineKey_of_keyOf keyed]
        cases computed with
        | none => exact outlineFields_matches rest out result outlines after filled
        | some computed =>
          obtain ⟨first, node_, remaining⟩ := Outcome.bind_eq_ok.mp after
          obtain ⟨found, outlined, matches_⟩ := outline_matches node first node_
          change ∃ found, (outline (Shape.of params) node).bind _ = some found ∧ _
          rw [outlined]
          cases first with
          | value value =>
            cases found with
            | none => exact matches_.elim
            | some added =>
              exact outlineFields_matches rest (out.insert computed value) result
                (outlines.insert computed added) remaining
                (fillFields_insert filled matches_)
          | elide =>
            cases found with
            | none => exact outlineFields_matches rest out result outlines remaining filled
            | some added => exact matches_.elim

theorem outlineItems_matches (items : List Value) (out : List Value)
    (substituted : substItems codec quote params items = .ok out) :
    ∃ found, outlineItems (Shape.of params) items = some found ∧
      fillItems quote params found = .ok out := by
  match items with
  | [] =>
    cases substituted
    exact ⟨[], rfl, rfl⟩
  | node :: rest =>
    rw [substItems] at substituted
    obtain ⟨first, node_, after⟩ := Outcome.bind_eq_ok.mp substituted
    obtain ⟨more, remaining, joined⟩ := Outcome.bind_eq_ok.mp after
    obtain ⟨found, outlined, matches_⟩ := outline_matches node first node_
    obtain ⟨outlines, outlinedRest, filled⟩ := outlineItems_matches rest more remaining
    rw [outlineItems, outlined]
    change ∃ found_, (outlineItems (Shape.of params) rest).bind _ = some found_ ∧ _
    rw [outlinedRest]
    cases first with
    | value value =>
      cases joined
      cases found with
      | none => exact matches_.elim
      | some added =>
        refine ⟨added :: outlines, rfl, ?_⟩
        rw [fillItems, matches_, filled]
        rfl
    | elide =>
      cases joined
      cases found with
      | none => exact ⟨outlines, rfl, filled⟩
      | some added => exact matches_.elim

end

theorem outline_of_substituteJson {template result : Value}
    (substituted : substituteJson codec quote params template = .ok result) :
    ∃ found, outline (Shape.of params) template = some (some found) ∧
      fill quote params found = .ok result := by
  obtain ⟨outcome, node, finished⟩ := Outcome.bind_eq_ok.mp substituted
  obtain ⟨found, outlined, matches_⟩ := outline_matches template outcome node
  cases outcome with
  | elide => cases finished
  | value value =>
    cases finished
    cases found with
    | none => exact matches_.elim
    | some found => exact ⟨found, outlined, matches_⟩

end Factoring

/-! ## Two assignments -/

mutual

/-- The parameters that are conditions. -/
def conditionNames : Value → List Str
  | .obj fields =>
    (((OrderedMap.get? fields conditionKey).bind Value.asStr).bind parseExact).toList.map
      Placeholder.name ++ conditionNamesFields fields
  | .arr items => conditionNamesItems items
  | .null | .bool _ | .num _ | .str _ => []

def conditionNamesFields : List (Str × Value) → List Str
  | [] => []
  | (_, node) :: rest => conditionNames node ++ conditionNamesFields rest

def conditionNamesItems : List Value → List Str
  | [] => []
  | node :: rest => conditionNames node ++ conditionNamesItems rest

end

mutual

/-- The parameters that are keys. -/
def keyNames : Value → List Str
  | .obj fields => keyNamesFields fields
  | .arr items => keyNamesItems items
  | .null | .bool _ | .num _ | .str _ => []

def keyNamesFields : List (Str × Value) → List Str
  | [] => []
  | (key, node) :: rest =>
    (parseExact key).toList.map Placeholder.name ++ keyNames node ++ keyNamesFields rest

def keyNamesItems : List Value → List Str
  | [] => []
  | node :: rest => keyNames node ++ keyNamesItems rest

end

/-- Two shapes agree on what the decisions about a template read. -/
structure Shape.Agree (conditions keys : List Str) (first second : Shape) : Prop where
  present : ∀ name, first.present name = second.present name
  truthy : ∀ name ∈ conditions, first.truthy name = second.truthy name
  key : ∀ name ∈ keys, first.key name = second.key name

theorem Shape.Agree.mono {conditions keys fewerConditions fewerKeys : List Str}
    {first second : Shape} (agree : Shape.Agree conditions keys first second)
    (within : fewerConditions ⊆ conditions) (withinKeys : fewerKeys ⊆ keys) :
    Shape.Agree fewerConditions fewerKeys first second where
  present := agree.present
  truthy := fun name member => agree.truthy name (within member)
  key := fun name member => agree.key name (withinKeys member)

section Congruence

variable {first second : Shape}

theorem outlineTokens_congr (present : ∀ name, first.present name = second.present name)
    (list : List Token) : outlineTokens first list = outlineTokens second list := by
  induction list with
  | nil => rfl
  | cons token rest ih =>
    cases token <;> simp only [outlineTokens, ih, present]

theorem outlineText_congr (present : ∀ name, first.present name = second.present name) (s : Str) :
    outlineText first s = outlineText second s := by
  simp only [outlineText, present, outlineTokens_congr present]

theorem outlineKeeps_congr {fields : Object}
    (present : ∀ name, first.present name = second.present name)
    (truthy : ∀ name ∈ conditionNames (.obj fields), first.truthy name = second.truthy name) :
    outlineKeeps first fields = outlineKeeps second fields := by
  unfold outlineKeeps
  cases cond : OrderedMap.get? fields conditionKey with
  | none => rfl
  | some value =>
    dsimp only
    cases exact : value.asStr.bind parseExact with
    | none => rfl
    | some placeholder =>
      have listed : placeholder.name ∈ conditionNames (.obj fields) := by
        rw [conditionNames, cond]
        refine List.mem_append_left _ (List.mem_map.mpr ⟨placeholder, ?_, rfl⟩)
        change placeholder ∈ (value.asStr.bind parseExact).toList
        rw [exact]
        exact List.mem_singleton_self _
      dsimp only
      rw [present, truthy _ listed]

theorem outlineKey_congr {key : Str} (present : ∀ name, first.present name = second.present name)
    (sameKey : ∀ name ∈ (parseExact key).toList.map Placeholder.name,
      first.key name = second.key name) :
    outlineKey first key = outlineKey second key := by
  unfold outlineKey
  cases exact : parseExact key with
  | none => rfl
  | some placeholder =>
    have listed : placeholder.name ∈ (parseExact key).toList.map Placeholder.name := by
      rw [exact]
      exact List.mem_singleton_self _
    dsimp only
    rw [present, sameKey _ listed]

mutual

theorem outline_congr (node : Value)
    (agree : Shape.Agree (conditionNames node) (keyNames node) first second) :
    outline first node = outline second node := by
  match node with
  | .str s => exact outlineText_congr agree.present s
  | .null | .bool _ | .num _ => rfl
  | .arr items =>
    rw [outline, outline, outlineItems_congr items agree]
  | .obj fields =>
    have members : Shape.Agree (conditionNamesFields fields) (keyNamesFields fields)
        first second := by
      refine agree.mono ?_ fun _ member => member
      rw [conditionNames]
      exact List.subset_append_right _ _
    rw [outline, outline, outlineKeeps_congr agree.present agree.truthy,
      outlineFields_congr fields [] members]

theorem outlineFields_congr (fields : List (Str × Value)) (out : OrderedMap Str Outline)
    (agree : Shape.Agree (conditionNamesFields fields) (keyNamesFields fields) first second) :
    outlineFields first fields out = outlineFields second fields out := by
  match fields with
  | [] => rfl
  | (key, node) :: rest =>
    have own : ∀ name ∈ (parseExact key).toList.map Placeholder.name,
        first.key name = second.key name := by
      intro name member
      refine agree.key name ?_
      rw [keyNamesFields]
      exact List.mem_append_left _ (List.mem_append_left _ member)
    have nested : Shape.Agree (conditionNames node) (keyNames node) first second := by
      rw [conditionNamesFields, keyNamesFields] at agree
      refine agree.mono (List.subset_append_left _ _) ?_
      exact fun name member => List.mem_append_left _ (List.mem_append_right _ member)
    have remaining : Shape.Agree (conditionNamesFields rest) (keyNamesFields rest)
        first second := by
      rw [conditionNamesFields, keyNamesFields] at agree
      exact agree.mono (List.subset_append_right _ _) (List.subset_append_right _ _)
    have step : ∀ out, outlineFields first rest out = outlineFields second rest out :=
      fun out => outlineFields_congr rest out remaining
    simp only [outlineFields, outlineKey_congr agree.present own, outline_congr node nested, step]

theorem outlineItems_congr (items : List Value)
    (agree : Shape.Agree (conditionNamesItems items) (keyNamesItems items) first second) :
    outlineItems first items = outlineItems second items := by
  match items with
  | [] => rfl
  | node :: rest =>
    rw [conditionNamesItems, keyNamesItems] at agree
    rw [outlineItems, outlineItems,
      outline_congr node (agree.mono (List.subset_append_left _ _) (List.subset_append_left _ _)),
      outlineItems_congr rest
        (agree.mono (List.subset_append_right _ _) (List.subset_append_right _ _))]

end

end Congruence

section TwoRuns

variable (quote : Value → Except RsError Str) (first second : Object)

mutual

/-- Two queries over one outline: they are equal but for the places of exact placeholders, which
hold the parameters' values, and for texts, which hold the values as they are quoted. -/
def Corresponds : Outline → (left right : Value) → Prop
  | .exact name, left, right => first.get? name = some left ∧ second.get? name = some right
  | .text fragments, left, right =>
    ∃ leftText rightText, left = .str leftText ∧ right = .str rightText ∧
      fillFragments quote first fragments = .ok leftText ∧
      fillFragments quote second fragments = .ok rightText
  | .leaf value, left, right => left = value ∧ right = value
  | .arr items, left, right =>
    ∃ lefts rights, left = .arr lefts ∧ right = .arr rights ∧
      CorrespondItems items lefts rights
  | .obj fields, left, right =>
    ∃ lefts rights, left = .obj lefts ∧ right = .obj rights ∧
      CorrespondFields fields lefts rights

def CorrespondItems : List Outline → (lefts rights : List Value) → Prop
  | [], lefts, rights => lefts = [] ∧ rights = []
  | item :: rest, lefts, rights =>
    ∃ left lefts' right rights', lefts = left :: lefts' ∧ rights = right :: rights' ∧
      Corresponds item left right ∧ CorrespondItems rest lefts' rights'

def CorrespondFields : List (Str × Outline) → (lefts rights : List (Str × Value)) → Prop
  | [], lefts, rights => lefts = [] ∧ rights = []
  | (key, item) :: rest, lefts, rights =>
    ∃ left lefts' right rights', lefts = (key, left) :: lefts' ∧
      rights = (key, right) :: rights' ∧ Corresponds item left right ∧
        CorrespondFields rest lefts' rights'

end

variable {quote first second}

mutual

theorem corresponds_of_fill (item : Outline) (left right : Value)
    (isLeft : fill quote first item = .ok left) (isRight : fill quote second item = .ok right) :
    Corresponds quote first second item left right := by
  match item with
  | .exact name =>
    rw [fill] at isLeft isRight
    rw [Corresponds]
    cases givenLeft : first.get? name with
    | none =>
      rw [givenLeft] at isLeft
      cases isLeft
    | some value =>
      rw [givenLeft] at isLeft
      cases isLeft
      cases givenRight : second.get? name with
      | none =>
        rw [givenRight] at isRight
        cases isRight
      | some value =>
        rw [givenRight] at isRight
        cases isRight
        exact ⟨rfl, rfl⟩
  | .text fragments =>
    rw [fill] at isLeft isRight
    obtain ⟨leftText, filledLeft, rfl⟩ := Outcome.map_eq_ok.mp isLeft
    obtain ⟨rightText, filledRight, rfl⟩ := Outcome.map_eq_ok.mp isRight
    rw [Corresponds]
    exact ⟨leftText, rightText, rfl, rfl, filledLeft, filledRight⟩
  | .leaf value =>
    cases isLeft
    cases isRight
    rw [Corresponds]
    exact ⟨rfl, rfl⟩
  | .arr items =>
    rw [fill] at isLeft isRight
    obtain ⟨lefts, filledLeft, rfl⟩ := Outcome.map_eq_ok.mp isLeft
    obtain ⟨rights, filledRight, rfl⟩ := Outcome.map_eq_ok.mp isRight
    rw [Corresponds]
    exact ⟨lefts, rights, rfl, rfl, correspond_of_fillItems items _ _ filledLeft filledRight⟩
  | .obj fields =>
    rw [fill] at isLeft isRight
    obtain ⟨lefts, filledLeft, rfl⟩ := Outcome.map_eq_ok.mp isLeft
    obtain ⟨rights, filledRight, rfl⟩ := Outcome.map_eq_ok.mp isRight
    rw [Corresponds]
    exact ⟨lefts, rights, rfl, rfl, correspond_of_fillFields fields _ _ filledLeft filledRight⟩

theorem correspond_of_fillItems (items : List Outline) (lefts rights : List Value)
    (isLeft : fillItems quote first items = .ok lefts)
    (isRight : fillItems quote second items = .ok rights) :
    CorrespondItems quote first second items lefts rights := by
  match items with
  | [] =>
    cases isLeft
    cases isRight
    rw [CorrespondItems]
    exact ⟨rfl, rfl⟩
  | item :: rest =>
    rw [fillItems] at isLeft isRight
    obtain ⟨left, headLeft, afterLeft⟩ := Outcome.bind_eq_ok.mp isLeft
    obtain ⟨lefts', tailLeft, joinedLeft⟩ := Outcome.bind_eq_ok.mp afterLeft
    obtain ⟨right, headRight, afterRight⟩ := Outcome.bind_eq_ok.mp isRight
    obtain ⟨rights', tailRight, joinedRight⟩ := Outcome.bind_eq_ok.mp afterRight
    cases joinedLeft
    cases joinedRight
    rw [CorrespondItems]
    exact ⟨left, lefts', right, rights', rfl, rfl, corresponds_of_fill item _ _ headLeft headRight,
      correspond_of_fillItems rest _ _ tailLeft tailRight⟩

theorem correspond_of_fillFields (fields : List (Str × Outline))
    (lefts rights : List (Str × Value)) (isLeft : fillFields quote first fields = .ok lefts)
    (isRight : fillFields quote second fields = .ok rights) :
    CorrespondFields quote first second fields lefts rights := by
  match fields with
  | [] =>
    cases isLeft
    cases isRight
    rw [CorrespondFields]
    exact ⟨rfl, rfl⟩
  | (key, item) :: rest =>
    rw [fillFields] at isLeft isRight
    obtain ⟨left, headLeft, afterLeft⟩ := Outcome.bind_eq_ok.mp isLeft
    obtain ⟨lefts', tailLeft, joinedLeft⟩ := Outcome.bind_eq_ok.mp afterLeft
    obtain ⟨right, headRight, afterRight⟩ := Outcome.bind_eq_ok.mp isRight
    obtain ⟨rights', tailRight, joinedRight⟩ := Outcome.bind_eq_ok.mp afterRight
    cases joinedLeft
    cases joinedRight
    rw [CorrespondFields]
    exact ⟨left, lefts', right, rights', rfl, rfl, corresponds_of_fill item _ _ headLeft headRight,
      correspond_of_fillFields rest _ _ tailLeft tailRight⟩

end

end TwoRuns

/-- Two assignments agree on which parameters are present, on the truth of conditions and on
keys. -/
structure Agree (template : Value) (first second : Object) : Prop where
  present : ∀ name, (first.get? name).isSome = (second.get? name).isSome
  conditions : ∀ name ∈ conditionNames template,
    (first.get? name).any isTruthy = (second.get? name).any isTruthy
  keys : ∀ name ∈ keyNames template, first.get? name = second.get? name

theorem Agree.shape {template : Value} {first second : Object}
    (agree : Agree template first second) :
    Shape.Agree (conditionNames template) (keyNames template) (Shape.of first)
      (Shape.of second) where
  present := agree.present
  truthy := agree.conditions
  key := fun name member => congrArg (·.bind Value.asStr) (agree.keys name member)

/-- **Substitution is safe against injection.**  Two queries that a template gives for assignments
that agree have one outline in common, which no value of a parameter has entered, and differ only
by the values in its places. -/
theorem substitution_is_injection_safe (codec : Codec) (quote : Value → Except RsError Str)
    (template : Value) (first second : Object) (left right : Value)
    (agree : Agree template first second)
    (isLeft : substituteJson codec quote first template = .ok left)
    (isRight : substituteJson codec quote second template = .ok right) :
    ∃ found, outline (Shape.of first) template = some (some found) ∧
      outline (Shape.of second) template = some (some found) ∧
      Corresponds quote first second found left right := by
  obtain ⟨found, outlined, filledLeft⟩ := outline_of_substituteJson isLeft
  obtain ⟨other, outlinedRight, filledRight⟩ := outline_of_substituteJson isRight
  have same := outline_congr template agree.shape
  rw [outlined, outlinedRight] at same
  cases same
  exact ⟨found, outlined, outlinedRight, corresponds_of_fill found left right filledLeft filledRight⟩

/-! A template with an exact and an embedded placeholder and a condition, and values that look
like placeholders. -/

def searchTemplate : Value :=
  Value.object [("$if", .str "$\x7bon?\x7d"), ("by", .str "name:$\x7bwho\x7d"),
    ("where", .str "$\x7bstatus\x7d")]

def plainSearch : Object :=
  [("on", .bool true), ("status", .str "open"), ("who", .str "ada")]

def hostileSearch : Object :=
  [("on", .str "yes"), ("status", .str "$\x7bwho\x7d"), ("who", .str "$\x7bstatus\x7d")]

def quoteText (value : Value) : Except RsError Str :=
  .ok (value.asStr.getD [])

theorem search_agrees : Agree searchTemplate plainSearch hostileSearch where
  present := by
    intro name
    have sameKeys : plainSearch.map Prod.fst = hostileSearch.map Prod.fst := by decide
    rw [Bool.eq_iff_iff, Option.isSome_iff_ne_none, Option.isSome_iff_ne_none, Ne, Ne,
      OrderedMap.get?_eq_none, OrderedMap.get?_eq_none, sameKeys]
  conditions := by decide +kernel
  keys := by decide +kernel

theorem hostile_search_keeps_outline :
    ∃ found, outline (Shape.of plainSearch) searchTemplate = some (some found) ∧
      outline (Shape.of hostileSearch) searchTemplate = some (some found) ∧
      Corresponds quoteText plainSearch hostileSearch found
        (Value.object [("by", .str "name:ada"), ("where", .str "open")])
        (Value.object [("by", .str "name:$\x7bstatus\x7d"), ("where", .str "$\x7bwho\x7d")]) :=
  substitution_is_injection_safe Tagged.codec quoteText searchTemplate plainSearch hostileSearch _ _
    search_agrees (by decide +kernel) (by decide +kernel)

end Rs2Runtime.Services.QueryTemplate
