import Rs2Runtime.Json.Place
import Rs2Runtime.Runtime.ConfigStore

/-!
Contract: what reading a configuration and putting it back does to its secrets.

Owns:
- the places of secrets, and documents that leave them as they were read;
- that the document as it was read is stored as the configuration it was read from;
- that secrets that are still there keep their values, whatever is edited elsewhere;
- that what is read does not depend on the values of secrets.
-/

namespace Rs2Runtime.Runtime.SecretRoundTrip

open Text Data Json Rs2Runtime.Services

/-! ## Places -/

/-- A place whose texts are secret. -/
inductive Secret : List Place → Prop
  | jwtSecret : Secret [.key "auth", .key "jwtSecret"]
  | named (rest : List Place) : Secret (.key "secrets" :: rest)

theorem get?_modify (key : Str) (change : Value → Value) (value : Value) (name : Str) :
    (modify key change value).get? name =
      (value.get? name).map fun member => if name = key then change member else member := by
  cases value with
  | obj fields =>
    exact OrderedMap.get?_map_value fields
      (fun name member => if name = key then change member else member) name
  | _ => rfl

theorem maskFields_eq_map (fields : List (Str × Value)) :
    maskFields fields = fields.map fun field => (field.1, maskLeaves field.2) := by
  induction fields with
  | nil => rfl
  | cons field fields ih =>
    rw [List.map_cons, ← ih]
    rfl

theorem maskItems_eq_map (items : List Value) : maskItems items = items.map maskLeaves := by
  induction items with
  | nil => rfl
  | cons item items ih =>
    rw [List.map_cons, ← ih]
    rfl

theorem inside_maskLeaves (value : Value) (step : Place) :
    (maskLeaves value).inside step = (value.inside step).map maskLeaves := by
  cases value with
  | obj fields =>
    cases step with
    | key name =>
      show OrderedMap.get? (maskFields fields) name = (OrderedMap.get? fields name).map maskLeaves
      rw [maskFields_eq_map]
      exact OrderedMap.get?_map_value fields (fun _ => maskLeaves) name
    | index position => rfl
  | arr items =>
    cases step with
    | key name => rfl
    | index position =>
      show (maskItems items)[position]? = (items[position]?).map maskLeaves
      rw [maskItems_eq_map, List.getElem?_map]
  | _ => cases step <;> rfl

theorem at?_maskLeaves (value : Value) (place : List Place) :
    (maskLeaves value).at? place = (value.at? place).map maskLeaves := by
  induction place generalizing value with
  | nil => rfl
  | cons step rest ih =>
    rw [Value.at?, Value.at?, inside_maskLeaves]
    cases value.inside step with
    | none => rfl
    | some next => exact ih next

variable {config current incoming : Value} {place : List Place} {fields : List (Str × Value)}
  {items : List Value}

/-- Where the document has a text in the place of a secret, that is the mark, and the configuration
has a text there. -/
theorem stored_of_redacted {read : Str} (secret : Secret place)
    (marked : (redactSecrets config).at? place = some (.str read)) :
    read = secretMask ∧ ∃ text, config.at? place = some (.str text) := by
  cases secret with
  | named rest =>
    have member : (redactSecrets config).inside (.key "secrets") =
        (config.inside (.key "secrets")).map maskLeaves := by
      show (redactSecrets config).get? "secrets" = (config.get? "secrets").map maskLeaves
      unfold redactSecrets
      rw [get?_modify, get?_modify]
      cases config.get? "secrets" with
      | none => rfl
      | some value => rfl
    rw [Value.at?, member] at marked
    rw [Value.at?]
    cases found : config.inside (.key "secrets") with
    | none =>
      rw [found] at marked
      cases marked
    | some value =>
      rw [found] at marked
      replace marked : (maskLeaves value).at? rest = some (.str read) := marked
      rw [at?_maskLeaves] at marked
      obtain ⟨leaf, there, masked⟩ := Option.map_eq_some_iff.mp marked
      cases leaf with
      | str text => exact ⟨(Value.str.inj masked).symm, text, there⟩
      | _ => cases masked
  | jwtSecret =>
    have auth : (redactSecrets config).get? "auth" =
        (config.get? "auth").map (modify "jwtSecret" maskText) := by
      unfold redactSecrets
      rw [get?_modify, get?_modify]
      cases config.get? "auth" with
      | none => rfl
      | some value => rfl
    replace marked : ((redactSecrets config).get? "auth").bind
        (fun next => (next.get? "jwtSecret").bind some) = some (.str read) := marked
    show read = secretMask ∧ ∃ text,
      ((config.get? "auth").bind fun next => (next.get? "jwtSecret").bind some) =
        some (.str text)
    rw [auth] at marked
    cases found : config.get? "auth" with
    | none =>
      rw [found] at marked
      cases marked
    | some value =>
      rw [found] at marked
      replace marked : (((modify "jwtSecret" maskText value).get? "jwtSecret").bind some) =
        some (.str read) := marked
      rw [get?_modify] at marked
      cases member : value.get? "jwtSecret" with
      | none =>
        rw [member] at marked
        cases marked
      | some leaf =>
        rw [member] at marked
        cases leaf with
        | str text =>
          cases marked
          refine ⟨rfl, text, ?_⟩
          show (value.get? "jwtSecret").bind some = _
          rw [member]
          rfl
        | _ => cases marked

/-! ## Restoring -/

theorem restoreFields_eq_map (fields : List (Str × Value)) (current : Value) :
    restoreFields fields current = fields.map fun field =>
      (field.1, restoreAt field.2 ((current.get? field.1).getD .null)) := by
  induction fields with
  | nil => rfl
  | cons field fields ih =>
    rw [List.map_cons, ← ih]
    rfl

theorem getElem?_restoreItems (items : List Value) (current : Value) (first position : Nat) :
    (restoreItems items current first)[position]? = items[position]?.map fun item =>
      restoreAt item ((current.inside (.index (first + position))).getD .null) := by
  induction items generalizing first position with
  | nil => rfl
  | cons item items ih =>
    unfold restoreItems
    cases position with
    | zero => rfl
    | succ position =>
      rw [List.getElem?_cons_succ, List.getElem?_cons_succ, ih,
        show first + 1 + position = first + (position + 1) by omega]

theorem inside_restoreAt (incoming current : Value) (step : Place) :
    (restoreAt incoming current).inside step = (incoming.inside step).map fun next =>
      restoreAt next ((current.inside step).getD .null) := by
  cases incoming with
  | str text =>
    unfold restoreAt
    split
    · cases current <;> cases step <;> rfl
    · cases step <;> rfl
  | obj fields =>
    cases step with
    | key name =>
      show OrderedMap.get? (restoreFields fields current) name = _
      rw [restoreFields_eq_map]
      exact OrderedMap.get?_map_value fields
        (fun key value => restoreAt value ((current.get? key).getD .null)) name
    | index position => rfl
  | arr items =>
    cases step with
    | key name => rfl
    | index position =>
      show (restoreItems items current 0)[position]? = _
      rw [getElem?_restoreItems, Nat.zero_add]
      rfl
  | _ => cases step <;> rfl

/-- A place is restored from the same place. -/
theorem at?_restoreAt (incoming current : Value) (place : List Place) :
    (restoreAt incoming current).at? place = (incoming.at? place).map fun found =>
      restoreAt found (current.atD place) := by
  induction place generalizing incoming current with
  | nil => rfl
  | cons step rest ih =>
    rw [Value.at?, Value.at?, inside_restoreAt, Value.atD_cons]
    cases incoming.inside step with
    | none => rfl
    | some next => exact ih next _

theorem restoreAt_eq_str {found : Value} {text : Str}
    (restored : restoreAt found current = .str text) :
    found = .str secretMask ∧ (current = .str text ∨ text = secretMask) ∨
      found = .str text ∧ text ≠ secretMask := by
  cases found with
  | str written =>
    unfold restoreAt at restored
    by_cases marked : written = secretMask
    · subst marked
      rw [if_pos rfl] at restored
      left
      refine ⟨rfl, ?_⟩
      cases current with
      | str stored => exact .inl restored
      | _ => exact .inr (Value.str.inj restored).symm
    · rw [if_neg marked] at restored
      cases restored
      exact .inr ⟨rfl, marked⟩
  | _ => cases restored

/-! ## Marks -/

mutual

theorem exists_of_hasMask : ∀ value : Value, value.WellFormed → hasMask value = true →
    ∃ place, value.at? place = some (.str secretMask)
  | .str text, _, marked => by
      have same : text = secretMask := of_decide_eq_true marked
      exact ⟨[], by rw [same]; rfl⟩
  | .obj fields, wellFormed, marked => by
      obtain ⟨field, member, place, found⟩ := exists_of_fieldsHaveMask fields wellFormed.2 marked
      refine ⟨.key field.1 :: place, ?_⟩
      rw [Value.at?, Value.inside_key_of_mem wellFormed.1 member]
      exact found
  | .arr items, wellFormed, marked => by
      obtain ⟨item, member, place, found⟩ := exists_of_itemsHaveMask items wellFormed marked
      obtain ⟨position, there⟩ := List.getElem?_of_mem member
      refine ⟨.index position :: place, ?_⟩
      show (items[position]?).bind _ = _
      rw [there]
      exact found
  | .null, _, marked | .bool _, _, marked | .num _, _, marked => by cases marked

theorem exists_of_fieldsHaveMask : ∀ fields : List (Str × Value), Value.WellFormedFields fields →
    fieldsHaveMask fields = true →
    ∃ field ∈ fields, ∃ place, field.2.at? place = some (.str secretMask)
  | [], _, marked => by cases marked
  | (key, value) :: fields, wellFormed, marked => by
      rcases Bool.or_eq_true_iff.mp marked with here | later
      · exact ⟨_, List.mem_cons_self, exists_of_hasMask value wellFormed.1 here⟩
      · obtain ⟨field, member, found⟩ := exists_of_fieldsHaveMask fields wellFormed.2 later
        exact ⟨field, List.mem_cons_of_mem _ member, found⟩

theorem exists_of_itemsHaveMask : ∀ items : List Value, Value.WellFormedItems items →
    itemsHaveMask items = true →
    ∃ item ∈ items, ∃ place, item.at? place = some (.str secretMask)
  | [], _, marked => by cases marked
  | item :: items, wellFormed, marked => by
      rcases Bool.or_eq_true_iff.mp marked with here | later
      · exact ⟨_, List.mem_cons_self, exists_of_hasMask item wellFormed.1 here⟩
      · obtain ⟨other, member, found⟩ := exists_of_itemsHaveMask items wellFormed.2 later
        exact ⟨other, List.mem_cons_of_mem _ member, found⟩

end

theorem fieldsHaveMask_of_mem {field : Str × Value} (member : field ∈ fields)
    (marked : hasMask field.2 = true) : fieldsHaveMask fields = true := by
  induction fields with
  | nil => cases member
  | cons first rest ih =>
    unfold fieldsHaveMask
    rcases List.mem_cons.mp member with rfl | later
    · rw [marked, Bool.true_or]
    · rw [ih later, Bool.or_true]

theorem itemsHaveMask_of_mem {item : Value} (member : item ∈ items) (marked : hasMask item = true) :
    itemsHaveMask items = true := by
  induction items with
  | nil => cases member
  | cons first rest ih =>
    unfold itemsHaveMask
    rcases List.mem_cons.mp member with rfl | later
    · rw [marked, Bool.true_or]
    · rw [ih later, Bool.or_true]

theorem hasMask_of_inside {value next : Value} {step : Place}
    (inside : value.inside step = some next) (marked : hasMask next = true) :
    hasMask value = true := by
  cases value with
  | obj fields =>
    cases step with
    | key name => exact fieldsHaveMask_of_mem (OrderedMap.mem_of_get? inside) marked
    | index position => cases inside
  | arr items =>
    cases step with
    | key name => cases inside
    | index position => exact itemsHaveMask_of_mem (List.mem_of_getElem? inside) marked
  | _ => cases step <;> cases inside

theorem hasMask_of_at? {value : Value} (found : value.at? place = some (.str secretMask)) :
    hasMask value = true := by
  induction place generalizing value with
  | nil =>
    cases found
    rfl
  | cons step rest ih =>
    obtain ⟨next, inside, later⟩ := Option.bind_eq_some_iff.mp found
    exact hasMask_of_inside inside (ih later)

theorem hasMask_of_mem_fields (unmasked : hasMask (.obj fields) = false) {field : Str × Value}
    (member : field ∈ fields) :
    hasMask field.2 = false := by
  by_contra marked
  have whole := fieldsHaveMask_of_mem member (Bool.of_not_eq_false marked)
  exact absurd (unmasked.symm.trans whole) (by decide)

theorem hasMask_of_mem_items (unmasked : hasMask (.arr items) = false) {item : Value}
    (member : item ∈ items) : hasMask item = false := by
  by_contra marked
  have whole := itemsHaveMask_of_mem member (Bool.of_not_eq_false marked)
  exact absurd (unmasked.symm.trans whole) (by decide)

/-! ## The document as it was read -/

/-- An object is restored to itself when each of its members is. -/
theorem restoreAt_map (ordered : OrderedMap.Ordered fields) (change : Str → Value → Value)
    (restored : ∀ field ∈ fields, restoreAt (change field.1 field.2) field.2 = field.2) :
    restoreAt (.obj (fields.map fun field => (field.1, change field.1 field.2))) (.obj fields) =
      .obj fields := by
  show Value.obj (restoreFields _ _) = _
  congr 1
  rw [restoreFields_eq_map, List.map_map]
  conv_rhs => rw [← List.map_id fields]
  apply List.map_congr_left
  intro field member
  have found : (Value.obj fields).get? field.1 = some field.2 :=
    OrderedMap.get?_of_mem ordered.nodup member
  show (field.1, restoreAt (change field.1 field.2) (((Value.obj fields).get? field.1).getD .null)) =
    field
  rw [found]
  exact congrArg (Prod.mk field.1) (restored field member)

/-- An array is restored to itself when each of its items is. -/
theorem restoreAt_map_items (change : Value → Value)
    (restored : ∀ item ∈ items, restoreAt (change item) item = item) :
    restoreAt (.arr (items.map change)) (.arr items) = .arr items := by
  show Value.arr (restoreItems _ _ 0) = _
  congr 1
  apply List.ext_getElem?
  intro position
  rw [getElem?_restoreItems, List.getElem?_map, Nat.zero_add]
  show ((items[position]?).map change).map
    (fun item => restoreAt item ((items[position]?).getD .null)) = items[position]?
  cases found : items[position]? with
  | none => rfl
  | some item => exact congrArg some (restored item (List.mem_of_getElem? found))

mutual

theorem restore_masked : ∀ value : Value, value.WellFormed →
    restoreAt (maskLeaves value) value = value
  | .str text, _ => by
      show restoreAt (.str secretMask) (.str text) = .str text
      unfold restoreAt
      rw [if_pos rfl]
  | .obj fields, wellFormed => by
      show restoreAt (.obj (maskFields fields)) _ = _
      rw [maskFields_eq_map]
      exact restoreAt_map wellFormed.1 (fun _ => maskLeaves)
        (restore_maskedFields fields wellFormed.2)
  | .arr items, wellFormed => by
      show restoreAt (.arr (maskItems items)) _ = _
      rw [maskItems_eq_map]
      exact restoreAt_map_items maskLeaves (restore_maskedItems items wellFormed)
  | .null, _ | .bool _, _ | .num _, _ => rfl

theorem restore_maskedFields : ∀ fields : List (Str × Value), Value.WellFormedFields fields →
    ∀ field ∈ fields, restoreAt (maskLeaves field.2) field.2 = field.2
  | [], _, _, member => by cases member
  | (key, value) :: fields, wellFormed, field, member => by
      rcases List.mem_cons.mp member with rfl | later
      · exact restore_masked value wellFormed.1
      · exact restore_maskedFields fields wellFormed.2 field later

theorem restore_maskedItems : ∀ items : List Value, Value.WellFormedItems items →
    ∀ item ∈ items, restoreAt (maskLeaves item) item = item
  | [], _, _, member => by cases member
  | first :: items, wellFormed, item, member => by
      rcases List.mem_cons.mp member with same | later
      · rw [same]
        exact restore_masked first wellFormed.1
      · exact restore_maskedItems items wellFormed.2 item later

end

mutual

/-- A value without a mark is restored to itself. -/
theorem restore_unmasked : ∀ value current : Value, hasMask value = false →
    restoreAt value current = value
  | .str text, current, unmasked => by
      unfold restoreAt
      rw [if_neg (of_decide_eq_false unmasked)]
  | .obj fields, current, unmasked =>
    congrArg Value.obj (restore_unmaskedFields fields current unmasked)
  | .arr items, current, unmasked =>
    congrArg Value.arr (restore_unmaskedItems items current 0 unmasked)
  | .null, _, _ | .bool _, _, _ | .num _, _, _ => rfl

theorem restore_unmaskedFields : ∀ (fields : List (Str × Value)) (current : Value),
    fieldsHaveMask fields = false → restoreFields fields current = fields
  | [], _, _ => rfl
  | (key, value) :: fields, current, unmasked => by
      obtain ⟨here, later⟩ := Bool.or_eq_false_iff.mp unmasked
      unfold restoreFields
      rw [restore_unmasked value _ here, restore_unmaskedFields fields current later]

theorem restore_unmaskedItems : ∀ (items : List Value) (current : Value) (index : Nat),
    itemsHaveMask items = false → restoreItems items current index = items
  | [], _, _, _ => rfl
  | item :: items, current, index, unmasked => by
      obtain ⟨here, later⟩ := Bool.or_eq_false_iff.mp unmasked
      unfold restoreItems
      rw [restore_unmasked item _ here, restore_unmaskedItems items current _ later]

end

theorem restore_jwtSecret {auth : Value} (wellFormed : auth.WellFormed)
    (unmasked : hasMask auth = false) :
    restoreAt (modify "jwtSecret" maskText auth) auth = auth := by
  cases auth with
  | obj fields =>
    refine restoreAt_map wellFormed.1
      (fun key value => if key = "jwtSecret".toList then maskText value else value) ?_
    intro field member
    split
    · cases value : field.2 with
      | str text =>
        show restoreAt (.str secretMask) (.str text) = .str text
        unfold restoreAt
        rw [if_pos rfl]
      | _ =>
        rw [← value]
        have same : maskText field.2 = field.2 := by rw [value]; rfl
        rw [same]
        exact restore_unmasked _ _ (hasMask_of_mem_fields unmasked member)
    · exact restore_unmasked _ _ (hasMask_of_mem_fields unmasked member)
  | _ => exact restore_unmasked _ _ unmasked

/-- The document read of an object, member by member. -/
def redactMember (key : Str) (value : Value) : Value :=
  if key = "secrets".toList then maskLeaves value
  else if key = "auth".toList then modify "jwtSecret" maskText value
  else value

theorem redactSecrets_obj (fields : List (Str × Value)) :
    redactSecrets (.obj fields) =
      .obj (fields.map fun field => (field.1, redactMember field.1 field.2)) := by
  show Value.obj ((fields.map _).map _) = _
  rw [List.map_map]
  congr 1
  apply List.map_congr_left
  intro field member
  show (field.1, if field.1 = "secrets".toList then
      maskLeaves (if field.1 = "auth".toList then _ else _)
    else (if field.1 = "auth".toList then _ else _)) = _
  unfold redactMember
  by_cases named : field.1 = "secrets".toList
  · rw [if_pos named, if_pos named, if_neg (by rw [named]; decide)]
  · rw [if_neg named, if_neg named]

/-- The document as it was read is restored to the configuration. -/
theorem restore_redacted (wellFormed : config.WellFormed) (unmasked : hasMask config = false) :
    restoreAt (redactSecrets config) config = config := by
  cases config with
  | obj fields =>
    rw [redactSecrets_obj]
    apply restoreAt_map wellFormed.1
    intro field member
    have inner := Value.wellFormedFields_iff.mp wellFormed.2 field member
    have clean := hasMask_of_mem_fields unmasked member
    unfold redactMember
    split
    · exact restore_masked field.2 inner
    split
    · exact restore_jwtSecret inner clean
    · exact restore_unmasked _ _ clean
  | _ => exact restore_unmasked _ _ unmasked

/-! ## An edited document -/

/-- An edited document has, in the places of secrets, only texts that were read there.  Anything
else of it, the shape of what holds the secrets included, is arbitrary. -/
def Edited (config incoming : Value) : Prop :=
  ∀ place text, Secret place → incoming.at? place = some (.str text) →
    (redactSecrets config).at? place = some (.str text)

/-- Every text in the place of a secret is the configuration's own text of that place, and every
secret whose mark was sent is there. -/
structure Kept (config incoming stored : Value) : Prop where
  own : ∀ place text, Secret place → stored.at? place = some (.str text) →
    config.at? place = some (.str text)
  present : ∀ place, Secret place → incoming.at? place = some (.str secretMask) →
    stored.at? place = config.at? place

theorem at?_of_marked (edited : Edited config incoming) (secret : Secret place)
    (marked : incoming.at? place = some (.str secretMask)) :
    (restoreAt incoming config).at? place = config.at? place := by
  obtain ⟨-, text, stored⟩ := stored_of_redacted secret (edited place _ secret marked)
  rw [at?_restoreAt, marked, stored, Value.atD, stored]
  show some (restoreAt (.str secretMask) (.str text)) = some (.str text)
  unfold restoreAt
  rw [if_pos rfl]

theorem kept_restoreAt (edited : Edited config incoming) :
    Kept config incoming (restoreAt incoming config) := by
  refine ⟨?_, fun place secret marked => at?_of_marked edited secret marked⟩
  intro place text secret found
  rw [at?_restoreAt] at found
  obtain ⟨written, there, restored⟩ := Option.map_eq_some_iff.mp found
  rcases restoreAt_eq_str restored with ⟨marked, -⟩ | ⟨same, unmarked⟩
  · have back := at?_of_marked edited secret (there.trans (congrArg some marked))
    rw [← back, at?_restoreAt]
    exact found
  · have read := edited place text secret (there.trans (congrArg some same))
    exact absurd (stored_of_redacted secret read).1 unmarked

mutual

/-- Restoring keeps the keys of every object. -/
theorem wellFormed_restoreAt : ∀ incoming current : Value, incoming.WellFormed →
    (restoreAt incoming current).WellFormed
  | .str text, current, _ => by
      unfold restoreAt
      split
      · cases current <;> trivial
      · trivial
  | .obj fields, current, wellFormed => by
      refine ⟨?_, wellFormed_restoreFields fields current wellFormed.2⟩
      have keys : (restoreFields fields current).map Prod.fst = fields.map Prod.fst := by
        rw [restoreFields_eq_map, List.map_map]
        rfl
      show List.Pairwise _ _
      rw [keys]
      exact wellFormed.1
  | .arr items, current, wellFormed => wellFormed_restoreItems items current 0 wellFormed
  | .null, _, _ | .bool _, _, _ => trivial
  | .num _, _, wellFormed => wellFormed

theorem wellFormed_restoreFields : ∀ (fields : List (Str × Value)) (current : Value),
    Value.WellFormedFields fields → Value.WellFormedFields (restoreFields fields current)
  | [], _, _ => trivial
  | (_, value) :: fields, current, wellFormed =>
    ⟨wellFormed_restoreAt value _ wellFormed.1, wellFormed_restoreFields fields current wellFormed.2⟩

theorem wellFormed_restoreItems : ∀ (items : List Value) (current : Value) (index : Nat),
    Value.WellFormedItems items → Value.WellFormedItems (restoreItems items current index)
  | [], _, _, _ => trivial
  | item :: items, current, _, wellFormed =>
    ⟨wellFormed_restoreAt item _ wellFormed.1,
      wellFormed_restoreItems items current _ wellFormed.2⟩

end

/-- A document whose only marks are those that were read is restored without a mark. -/
theorem hasMask_restoreAt (unmasked : hasMask config = false) (wellFormed : incoming.WellFormed)
    (edited : Edited config incoming)
    (onlyThere : ∀ place, incoming.at? place = some (.str secretMask) → Secret place) :
    hasMask (restoreAt incoming config) = false := by
  by_contra marked
  obtain ⟨place, left⟩ := exists_of_hasMask _ (wellFormed_restoreAt incoming config wellFormed)
    (Bool.of_not_eq_false marked)
  have found := left
  rw [at?_restoreAt] at found
  obtain ⟨written, there, restored⟩ := Option.map_eq_some_iff.mp found
  rcases restoreAt_eq_str restored with ⟨isMask, -⟩ | ⟨-, unmarked⟩
  · have sent := there.trans (congrArg some isMask)
    have stored := (at?_of_marked edited (onlyThere place sent) sent).symm.trans left
    exact absurd (unmasked.symm.trans (hasMask_of_at? stored)) (by decide)
  · exact unmarked rfl

theorem restoreSecrets_of_unmasked (clean : hasMask (restoreAt incoming current) = false) :
    restoreSecrets incoming current = .ok (restoreAt incoming current) := by
  show (if hasMask (restoreAt incoming current) = true then _ else _) = _
  rw [clean]
  rfl

theorem restoreSecrets_eq_ok {stored : Value}
    (restored : restoreSecrets incoming current = .ok stored) :
    stored = restoreAt incoming current := by
  replace restored : (if hasMask (restoreAt incoming current) = true then _
    else Except.ok (restoreAt incoming current)) = Except.ok stored := restored
  split at restored
  · cases restored
  · exact (Except.ok.inj restored).symm

/-! ## Configurations that differ in their secrets -/

mutual

/-- Values that differ only in their texts. -/
def SameButTexts : Value → Value → Prop
  | .str _, .str _ => True
  | .obj left, .obj right => SameFields left right
  | .arr left, .arr right => SameItems left right
  | left, right => left = right

def SameFields : List (Str × Value) → List (Str × Value) → Prop
  | [], [] => True
  | (key, left) :: lefts, (other, right) :: rights =>
    key = other ∧ SameButTexts left right ∧ SameFields lefts rights
  | _, _ => False

def SameItems : List Value → List Value → Prop
  | [], [] => True
  | left :: lefts, right :: rights => SameButTexts left right ∧ SameItems lefts rights
  | _, _ => False

end

/-- Objects with the same keys and alike members, or the same value. -/
def AlikeMembers (alike : Str → Value → Value → Prop) : Value → Value → Prop
  | .obj left, .obj right =>
    List.Forall₂ (fun a b => a.1 = b.1 ∧ alike a.1 a.2 b.2) left right
  | left, right => left = right

/-- Members of `auth` that differ only in the text `jwtSecret`. -/
def AlikeInAuth (key : Str) (left right : Value) : Prop :=
  left = right ∨ key = "jwtSecret".toList ∧ ∃ a b, left = .str a ∧ right = .str b

def AlikeInConfig (key : Str) (left right : Value) : Prop :=
  if key = "secrets".toList then SameButTexts left right
  else if key = "auth".toList then AlikeMembers AlikeInAuth left right
  else left = right

/-- Configurations that differ only in texts under `secrets` and in the text `auth.jwtSecret`. -/
def DifferInSecrets (config other : Value) : Prop :=
  AlikeMembers AlikeInConfig config other

mutual

theorem maskLeaves_same : ∀ left right : Value, SameButTexts left right →
    maskLeaves left = maskLeaves right
  | .str _, .str _, _ => rfl
  | .obj left, .obj right, same => congrArg Value.obj (maskFields_same left right same)
  | .arr left, .arr right, same => congrArg Value.arr (maskItems_same left right same)
  | .null, right, same | .bool _, right, same | .num _, right, same => by
      unfold SameButTexts at same
      rw [same]
  | .str _, .null, same | .str _, .bool _, same | .str _, .num _, same | .str _, .arr _, same
  | .str _, .obj _, same | .arr _, .null, same | .arr _, .bool _, same | .arr _, .num _, same
  | .arr _, .str _, same | .arr _, .obj _, same | .obj _, .null, same | .obj _, .bool _, same
  | .obj _, .num _, same | .obj _, .str _, same | .obj _, .arr _, same => by
      unfold SameButTexts at same
      cases same

theorem maskFields_same : ∀ left right : List (Str × Value), SameFields left right →
    maskFields left = maskFields right
  | [], [], _ => rfl
  | (key, left) :: lefts, (other, right) :: rights, same => by
      obtain ⟨sameKey, sameValue, later⟩ := same
      unfold maskFields
      rw [sameKey, maskLeaves_same left right sameValue, maskFields_same lefts rights later]
  | [], _ :: _, same | _ :: _, [], same => by cases same

theorem maskItems_same : ∀ left right : List Value, SameItems left right →
    maskItems left = maskItems right
  | [], [], _ => rfl
  | left :: lefts, right :: rights, same => by
      unfold maskItems
      rw [maskLeaves_same left right same.1, maskItems_same lefts rights same.2]
  | [], _ :: _, same | _ :: _, [], same => by cases same

end

/-- Alike members become the same where the change removes what they differ in. -/
theorem map_alike (alike : Str → Value → Value → Prop) (change : Str → Value → Value)
    (removes : ∀ key left right, alike key left right → change key left = change key right)
    {left right : List (Str × Value)}
    (same : List.Forall₂ (fun a b => a.1 = b.1 ∧ alike a.1 a.2 b.2) left right) :
    (left.map fun field => (field.1, change field.1 field.2)) =
      right.map fun field => (field.1, change field.1 field.2) := by
  induction same with
  | nil => rfl
  | @cons a b lefts rights here later ih =>
    rw [List.map_cons, List.map_cons, ih, removes _ _ _ here.2, here.1]

theorem maskJwtSecret_alike {left right : Value} (same : AlikeMembers AlikeInAuth left right) :
    modify "jwtSecret" maskText left = modify "jwtSecret" maskText right := by
  unfold AlikeMembers at same
  split at same
  · refine congrArg Value.obj (map_alike AlikeInAuth (fun key value =>
      if key = "jwtSecret".toList then maskText value else value) ?_ same)
    rintro key one other (rfl | ⟨rfl, a, b, rfl, rfl⟩)
    · rfl
    · rfl
  · rw [same]

/-- The document read says nothing of the secrets. -/
theorem redact_differInSecrets {other : Value} (same : DifferInSecrets config other) :
    redactSecrets config = redactSecrets other := by
  unfold DifferInSecrets AlikeMembers at same
  split at same
  · rw [redactSecrets_obj, redactSecrets_obj]
    refine congrArg Value.obj (map_alike AlikeInConfig redactMember ?_ same)
    intro key left right alike
    unfold AlikeInConfig at alike
    unfold redactMember
    by_cases secrets : key = "secrets".toList
    · rw [if_pos secrets] at alike
      rw [if_pos secrets, if_pos secrets]
      exact maskLeaves_same left right alike
    rw [if_neg secrets] at alike
    rw [if_neg secrets, if_neg secrets]
    by_cases auth : key = "auth".toList
    · rw [if_pos auth] at alike
      rw [if_pos auth, if_pos auth]
      exact maskJwtSecret_alike alike
    · rw [if_neg auth] at alike
      rw [alike]
  · rw [same]

/-! ## Read, edit and put back -/

/-- Secrets survive being read as marks and put back, and are never read back.  The document put
back unchanged stores the configuration it was read from; one that was edited stores, in every place
of a secret, the text of that place or none, and every secret whose mark was sent; and the document
read depends on no secret. -/
theorem secrets_survive_unread (store : ConfigStore.Store) (file : Option Str) (config : Value)
    (read : file.bind store.parse = some config) (wellFormed : config.WellFormed)
    (unmasked : hasMask config = false) :
    store.restored (redactSecrets config) file = .ok config ∧
      (∀ incoming : Value, incoming.WellFormed → Edited config incoming →
        (∀ stored, store.restored incoming file = .ok stored → Kept config incoming stored) ∧
        ((∀ place, incoming.at? place = some (.str secretMask) → Secret place) →
          ∃ stored, store.restored incoming file = .ok stored)) ∧
      ∀ other : Value, DifferInSecrets config other → redactSecrets config = redactSecrets other := by
  have current : (file.bind store.parse).getD .null = config := by rw [read]; rfl
  unfold ConfigStore.Store.restored
  rw [current]
  refine ⟨?_, ?_, fun other => redact_differInSecrets⟩
  · have same := restore_redacted wellFormed unmasked
    rw [restoreSecrets_of_unmasked (by rw [same]; exact unmasked), same]
  · intro incoming incomingWellFormed edited
    constructor
    · intro stored restored
      rw [restoreSecrets_eq_ok restored]
      exact kept_restoreAt edited
    · intro onlyThere
      exact ⟨_, restoreSecrets_of_unmasked
        (hasMask_restoreAt unmasked incomingWellFormed edited onlyThere)⟩

/-- A store whose files are printed and read by one codec. -/
def codecStore : ConfigStore.Store where
  codec := Tagged.codec
  materializedBodyBytes := 1000
  versionOf := fun text => text
  pretty := Tagged.codec.print
  parse := fun text => Tagged.codec.parse (utf8 text)
  build := fun _ => .ok ()

/-- A configuration with two secrets. -/
def twoSecrets : Value :=
  .obj [("auth", .obj [("jwtSecret", .str "j")]), ("mounts", .arr []),
    ("secrets", .obj [("mail", .str "m"), ("sms", .str "s")])]

/-- The document read of it, without its mounts and the secret `mail`. -/
def oneRemoved : Value :=
  .obj [("auth", .obj [("jwtSecret", .str secretMask)]),
    ("secrets", .obj [("sms", .str secretMask)])]

theorem parse_twoSecrets :
    Tagged.codec.parse (Tagged.codec.encode twoSecrets) = some twoSecrets := by
  decide +kernel

theorem parse_oneRemoved :
    Tagged.codec.parse (Tagged.codec.encode oneRemoved) = some oneRemoved := by
  decide +kernel

theorem edited_oneRemoved : Edited twoSecrets oneRemoved := by
  intro place text secret found
  cases secret with
  | jwtSecret =>
    cases found
    rfl
  | named rest =>
    replace found : (Value.obj [("sms", .str secretMask)]).at? rest = some (.str text) := found
    cases rest with
    | nil => cases found
    | cons step rest =>
      cases step with
      | index position => cases found
      | key name =>
        by_cases same : "sms".toList = name
        · subst same
          cases rest with
          | nil =>
            cases found
            rfl
          | cons step rest => cases step <;> cases found
        · rw [Value.at?] at found
          change ((OrderedMap.get? [("sms".toList, Value.str secretMask)] name).bind
            fun next => next.at? rest) = _ at found
          rw [OrderedMap.get?_cons, if_neg same] at found
          cases found

theorem two_secrets_survive :
    codecStore.restored (redactSecrets twoSecrets) (some (Tagged.codec.print twoSecrets)) =
        .ok twoSecrets ∧
      ∀ stored, codecStore.restored oneRemoved (some (Tagged.codec.print twoSecrets)) = .ok stored →
        Kept twoSecrets oneRemoved stored := by
  have survive := secrets_survive_unread codecStore (some (Tagged.codec.print twoSecrets)) twoSecrets
    parse_twoSecrets (Tagged.codec.wellFormed_of_parse _ _ parse_twoSecrets) (by decide +kernel)
  have wellFormed := Tagged.codec.wellFormed_of_parse _ _ parse_oneRemoved
  exact ⟨survive.1, (survive.2.1 oneRemoved wellFormed edited_oneRemoved).1⟩

end Rs2Runtime.Runtime.SecretRoundTrip
