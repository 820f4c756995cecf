import Rs2Runtime.Data.Completion
import Rs2Runtime.Data.Sorting
import Rs2Runtime.Data.Visibility
import Rs2Runtime.Pipeline.AtMostOnce

/-!
Contract: what a split joins its elements' results into.

Owns:
- the object a split answers with, and the order of its members, whatever the order in which its
  elements complete, for builds that order members by key and for those that keep the order of
  insertion;
- when the comparison that puts the results back in order is a total preorder of the elements'
  names.

Does not own: the steps an element runs through, and how failed elements end a split.
-/

namespace Rs2Runtime.Pipeline

open scoped List
open Text Data Data.Outcome Json

/-! ## The order of names -/

section Names

variable {left middle right : Str × Message}

theorem nameLe_of_numbers {first second : Nat} (leftNumber : parseU64 left.1 = some first)
    (rightNumber : parseU64 right.1 = some second) : nameLe left right ↔ first ≤ second := by
  unfold nameLe
  rw [leftNumber, rightNumber]

/-- Names that are not both numbers are compared as texts. -/
theorem nameLe_of_texts (text : parseU64 left.1 = none ∨ parseU64 right.1 = none) :
    nameLe left right ↔ left.1 ≤ right.1 := by
  have compared : compareOfLessAndEq left.1 right.1 ≠ .gt ↔ left.1 ≤ right.1 := by
    unfold compareOfLessAndEq
    split
    next less => exact ⟨fun _ => le_of_lt less, fun _ => nofun⟩
    next notLess =>
      split
      next same => exact ⟨fun _ => le_of_eq same, fun _ => nofun⟩
      next differ =>
        have greater : right.1 < left.1 :=
          lt_of_le_of_ne (not_lt.mp notLess) (Ne.symm differ)
        exact ⟨fun notGreater => absurd rfl notGreater, fun le => absurd greater (not_lt.mpr le)⟩
  unfold nameLe
  rcases text with leftText | rightText
  · rw [leftText]
    exact compared
  · rw [rightText]
    cases parseU64 left.1 <;> exact compared

/-- The comparison is a total preorder of these names. -/
structure OrdersNames (names : List Str) : Prop where
  total : ∀ left right : Str × Message, left.1 ∈ names → right.1 ∈ names →
    nameLe left right ∨ nameLe right left
  transitive : ∀ left middle right : Str × Message, left.1 ∈ names → middle.1 ∈ names →
    right.1 ∈ names → nameLe left middle → nameLe middle right → nameLe left right

/-- No name that is not a number stands, as a text, after a number and before one that is not
greater. -/
def Aligned (names : List Str) : Prop :=
  ∀ low ∈ names, ∀ high ∈ names, ∀ text ∈ names, ∀ lowest highest : Nat,
    parseU64 low = some lowest → parseU64 high = some highest → parseU64 text = none →
      lowest ≤ highest → high < text → text < low → False

theorem nameLe_total (left right : Str × Message) : nameLe left right ∨ nameLe right left := by
  cases leftRead : parseU64 left.1 with
  | none =>
    rw [nameLe_of_texts (.inl leftRead), nameLe_of_texts (.inr leftRead)]
    exact le_total _ _
  | some first =>
    cases rightRead : parseU64 right.1 with
    | none =>
      rw [nameLe_of_texts (.inr rightRead), nameLe_of_texts (.inl rightRead)]
      exact le_total _ _
    | some second =>
      rw [nameLe_of_numbers leftRead rightRead, nameLe_of_numbers rightRead leftRead]
      exact Nat.le_total _ _

variable {names : List Str}

theorem aligned_of_ordersNames (msg : Message) (orders : OrdersNames names) : Aligned names := by
  intro low isLow high isHigh text isText lowest highest lowRead highRead textRead le after before
  -- low ≤ high as numbers and high ≤ text as texts, but text < low.
  have first : nameLe (low, msg) (high, msg) := (nameLe_of_numbers lowRead highRead).mpr le
  have second : nameLe (high, msg) (text, msg) :=
    (nameLe_of_texts (.inr textRead)).mpr (le_of_lt after)
  have third := orders.transitive (low, msg) (high, msg) (text, msg) isLow isHigh isText first second
  exact not_le_of_gt before ((nameLe_of_texts (.inr textRead)).mp third)

/-- A text between two numbers cannot put them the other way round. -/
theorem not_le_of_aligned (aligned : Aligned names) {low high text : Str} {lowest highest : Nat}
    (isLow : low ∈ names) (isHigh : high ∈ names) (isText : text ∈ names)
    (lowRead : parseU64 low = some lowest) (highRead : parseU64 high = some highest)
    (textRead : parseU64 text = none) (le : lowest ≤ highest) (after : high ≤ text) :
    low ≤ text := by
  have apart : ∀ {number : Str} {value : Nat}, parseU64 number = some value → number ≠ text := by
    intro number value read same
    rw [same, textRead] at read
    cases read
  by_contra before
  exact aligned low isLow high isHigh text isText lowest highest lowRead highRead textRead le
    (lt_of_le_of_ne after (apart highRead)) (lt_of_not_ge before)

theorem nameLe_trans_of_aligned (aligned : Aligned names) (isLeft : left.1 ∈ names)
    (isMiddle : middle.1 ∈ names) (isRight : right.1 ∈ names) (first : nameLe left middle)
    (second : nameLe middle right) : nameLe left right := by
  cases leftRead : parseU64 left.1 with
  | none =>
    rw [nameLe_of_texts (.inl leftRead)] at first ⊢
    cases middleRead : parseU64 middle.1 with
    | none => exact le_trans first ((nameLe_of_texts (.inl middleRead)).mp second)
    | some between =>
      cases rightRead : parseU64 right.1 with
      | none => exact le_trans first ((nameLe_of_texts (.inr rightRead)).mp second)
      | some last =>
        -- text ≤ middle as texts, and middle ≤ right as numbers.
        have le := (nameLe_of_numbers middleRead rightRead).mp second
        by_contra before
        have apart : left.1 ≠ middle.1 := fun same => by
          rw [same, middleRead] at leftRead
          cases leftRead
        exact aligned _ isMiddle _ isRight _ isLeft between last middleRead rightRead leftRead le
          (lt_of_not_ge before) (lt_of_le_of_ne first apart)
  | some start =>
    cases middleRead : parseU64 middle.1 with
    | none =>
      rw [nameLe_of_texts (.inr middleRead)] at first
      rw [nameLe_of_texts (.inl middleRead)] at second
      cases rightRead : parseU64 right.1 with
      | none => exact (nameLe_of_texts (.inr rightRead)).mpr (le_trans first second)
      | some last =>
        rw [nameLe_of_numbers leftRead rightRead]
        by_contra greater
        have reached := not_le_of_aligned aligned isRight isLeft isMiddle rightRead leftRead
          middleRead (Nat.le_of_not_ge greater) first
        have same : right.1 = middle.1 := le_antisymm reached second
        rw [same, middleRead] at rightRead
        cases rightRead
    | some between =>
      have le := (nameLe_of_numbers leftRead middleRead).mp first
      cases rightRead : parseU64 right.1 with
      | none =>
        rw [nameLe_of_texts (.inr rightRead)] at second ⊢
        exact not_le_of_aligned aligned isLeft isMiddle isRight leftRead middleRead rightRead le second
      | some last =>
        rw [nameLe_of_numbers leftRead rightRead]
        exact le_trans le ((nameLe_of_numbers middleRead rightRead).mp second)

theorem ordersNames_of_aligned (aligned : Aligned names) : OrdersNames names where
  total := fun left right _ _ => nameLe_total left right
  transitive := fun _ _ _ isLeft isMiddle isRight =>
    nameLe_trans_of_aligned aligned isLeft isMiddle isRight

/-- No two names are the same number, as `1` and `01` are. -/
def NumbersApart (names : List Str) : Prop :=
  ∀ left ∈ names, ∀ right ∈ names, ∀ number : Nat, parseU64 left = some number →
    parseU64 right = some number → left = right

theorem name_eq_of_nameLe (apart : NumbersApart names) (isLeft : left.1 ∈ names)
    (isRight : right.1 ∈ names) (le : nameLe left right) (ge : nameLe right left) :
    left.1 = right.1 := by
  by_cases text : parseU64 left.1 = none ∨ parseU64 right.1 = none
  · exact le_antisymm ((nameLe_of_texts text).mp le) ((nameLe_of_texts text.symm).mp ge)
  · obtain ⟨first, leftRead⟩ := Option.ne_none_iff_exists'.mp (not_or.mp text).1
    obtain ⟨second, rightRead⟩ := Option.ne_none_iff_exists'.mp (not_or.mp text).2
    have same := Nat.le_antisymm ((nameLe_of_numbers leftRead rightRead).mp le)
      ((nameLe_of_numbers rightRead leftRead).mp ge)
    exact apart _ isLeft _ isRight first leftRead (same ▸ rightRead)

/-- Names that are all numbers, as those of an array's elements, are aligned. -/
theorem aligned_of_numbers (numbers : ∀ name ∈ names, parseU64 name ≠ none) : Aligned names :=
  fun _ _ _ _ text isText _ _ _ _ textRead _ _ _ => numbers text isText textRead

end Names

/-! ## The joined object -/

variable {named : List (Str × Message)}

section Joined

variable (executor : Executor) (world : World)

variable {entries : List (Str × Value)}

/-- Maps from the same entries in different orders are one map. -/
theorem ofList_eq_of_perm {entries' : List (Str × Value)} (perm : entries.Perm entries')
    (distinct : (entries.map Prod.fst).Nodup) :
    OrderedMap.ofList entries = OrderedMap.ofList entries' := by
  have distinct' : (entries'.map Prod.fst).Nodup := (perm.map Prod.fst).nodup_iff.mp distinct
  refine OrderedMap.Ordered.ext (OrderedMap.ordered_ofList _) (OrderedMap.ordered_ofList _)
    fun key => ?_
  rw [OrderedMap.get?_ofList, OrderedMap.get?_ofList, OrderedMap.get?_reverse distinct,
    OrderedMap.get?_reverse distinct']
  refine Option.ext fun value => ?_
  constructor
  · intro found
    exact OrderedMap.get?_of_mem distinct' (perm.mem_iff.mp (OrderedMap.mem_of_get? found))
  · intro found
    exact OrderedMap.get?_of_mem distinct (perm.mem_iff.mpr (OrderedMap.mem_of_get? found))

theorem members_asInserted (distinct : (entries.map Prod.fst).Nodup) :
    Value.MemberOrder.members .asInserted entries = entries :=
  OrderedMap.foldl_insertInPlace distinct

/-- In either build, an object has one member for each of the entries. -/
theorem members_of_distinct (order : Value.MemberOrder) (distinct : (entries.map Prod.fst).Nodup) :
    ((order.members entries).map Prod.fst).Perm (entries.map Prod.fst) ∧
      ∀ entry ∈ entries, (order.members entries).get? entry.1 = some entry.2 := by
  cases order with
  | byKey =>
    constructor
    · exact (List.perm_ext_iff_of_nodup (OrderedMap.ordered_ofList _).nodup distinct).mpr
        (OrderedMap.mem_keys_ofList _)
    · intro entry member
      rw [Value.MemberOrder.members, OrderedMap.get?_ofList, OrderedMap.get?_reverse distinct]
      exact OrderedMap.get?_of_mem distinct member
  | asInserted =>
    rw [members_asInserted distinct]
    exact ⟨.refl _, fun entry member => OrderedMap.get?_of_mem distinct member⟩

theorem joinObject_of_values {value : Str × Message → Value}
    (converted : ∀ result ∈ named, resultValue executor world result.2 = .ok (value result)) :
    joinObject executor world named =
      .ok (world.memberOrder.members (named.map fun result => (result.1, value result))) := by
  have members : (named.mapM fun leg =>
      (resultValue executor world leg.2).map fun found => (leg.1, found)) =
        .ok (named.map fun result => (result.1, value result)) := by
    induction named with
    | nil => rfl
    | cons result rest ih =>
      rw [List.mapM_cons, converted result List.mem_cons_self,
        ih fun other isOther => converted other (List.mem_cons_of_mem _ isOther)]
      rfl
  rw [joinObject, members]
  rfl

end Joined

/-! ## The run of a split -/

section Split

variable {executor : Executor} {world : World} {below : Runner} {rest : PipelineSpec}
  {index : Nat} {msg : Message} {vars : Object} {place : Place}

theorem runElement_name {element : Str × Value} {result : Str × Message}
    (ran : (runElement world below rest index msg vars place element).outcome = .ok result) :
    result.1 = element.1 := by
  unfold runElement at ran
  dsimp only at ran
  split at ran
  · cases ran
    rfl
  · cases ended : (below rest _ vars (place.element index element.1) none).outcome with
    | error failure =>
      rw [Traced.bind_of_error ended] at ran
      cases ran
    | ok out =>
      rw [Traced.bind_of_ok ended] at ran
      cases ran
      rfl

theorem results_names {elements : List (Str × Value)} {results : List (Str × Message)}
    (ran : elements.map (fun element =>
      (runElement world below rest index msg vars place element).outcome) = results.map .ok) :
    results.map Prod.fst = elements.map Prod.fst := by
  induction elements generalizing results with
  | nil =>
    rw [List.map_nil, eq_comm, List.map_eq_nil_iff] at ran
    rw [ran, List.map_nil, List.map_nil]
  | cons element elements ih =>
    cases results with
    | nil => cases ran
    | cons result results =>
      rw [List.map_cons, List.map_cons] at ran
      obtain ⟨head, tail⟩ := List.cons.inj ran
      rw [List.map_cons, List.map_cons, runElement_name head, ih tail]

theorem results_distinct {json : Value} {results : List (Str × Message)}
    (read : splitInput executor world msg = .ok json)
    (ran : (splitElements json).map (fun element =>
      (runElement world below rest index msg vars place element).outcome) = results.map .ok) :
    (results.map Prod.fst).Nodup := by
  rw [results_names ran]
  exact List.pairwise_map.mpr (splitElements_names (splitInput_wellFormed read))

theorem mapM_id_map_ok {α ε : Type} (values : List α) :
    ((values.map Except.ok).mapM id : Except ε (List α)) = .ok values := by
  induction values with
  | nil => rfl
  | cons value values ih =>
    rw [List.map_cons, List.mapM_cons, ih]
    rfl

/-- A split sorts the results from the order in which its elements complete. -/
theorem splitResults_of_results {spec : PipelineSpec} {json : Value}
    {results : List (Str × Message)} (read : splitInput executor world msg = .ok json)
    (fits : (splitElements json).length ≤ executor.limits.maxFanout)
    (ran : (splitElements json).map (fun element =>
      (runElement world below (afterSplit spec index) index msg vars place element).outcome) =
        results.map .ok) :
    (splitResults executor world below spec index msg vars place).outcome =
      .ok ((Completion.arrange (world.completion place results.length) results).insertionSort
        nameLe) := by
  have completed : world.completed place (results.map (Except.ok (ε := Failure))) =
      (Completion.arrange (world.completion place results.length) results).map .ok := by
    rw [Completion.map_arrange, World.completed, Completion.arrange, List.length_map]
  unfold splitResults
  rw [read, lift_ok_bind]
  dsimp only
  rw [require, if_pos fits, lift_ok_bind, Traced.bind_of_ok rfl]
  dsimp only
  rw [List.map_map, Function.comp_def, ran, completed, mapM_id_map_ok, Traced.bind_of_ok rfl]
  rfl

theorem runSplit_of_joined {spec : PipelineSpec} {fields : Object}
    (split : (splitResults executor world below spec index msg vars place).outcome = .ok named)
    (joined : joinObject executor world named = .ok fields) :
    (runSplit executor world below spec index msg vars place).outcome =
      .ok (.exit ((cloneWithBody msg none).okJson world.codec (.obj fields)), vars) := by
  rw [runSplit, Traced.bind_of_ok split, join, joined]
  rfl

end Split

section Restored

variable (executor : Executor) (world : World) (below : Runner) (spec : PipelineSpec) (index : Nat)
  (msg : Message) (vars : Object) (place : Place)

/-- The split answers with the object of these members, in their order, whatever order its
elements complete in. -/
def JoinsInto (count : Nat) (fields : Object) : Prop :=
  ∀ completion : Place → Nat → List Nat,
    (completion place count).Perm (List.range count) →
      ∃ named,
        (splitResults executor { world with completion := completion } below spec index msg vars
          place).outcome = .ok named ∧
        joinObject executor world named = .ok fields ∧
        (runSplit executor { world with completion := completion } below spec index msg vars
          place).outcome =
            .ok (.exit ((cloneWithBody msg none).okJson world.codec (.obj fields)), vars)

variable {executor world below spec index msg vars place} {json : Value}
  {results : List (Str × Message)} {value : Str × Message → Value}
  (read : splitInput executor world msg = .ok json)
  (fits : (splitElements json).length ≤ executor.limits.maxFanout)
  (ran : (splitElements json).map (fun element =>
    (runElement world below (afterSplit spec index) index msg vars place element).outcome) =
      results.map .ok)
  (converted : ∀ result ∈ results, resultValue executor world result.2 = .ok (value result))

include read ran

theorem entries_distinct (same : named.Perm results) :
    ((named.map fun result => (result.1, value result)).map Prod.fst).Nodup := by
  rw [List.map_map]
  exact (same.map Prod.fst).nodup_iff.mpr (results_distinct read ran)

include fits converted

/-- With the results of its elements, a split joins them as they are sorted. -/
theorem joined_of_results {completion : Place → Nat → List Nat}
    (order : (completion place results.length).Perm (List.range results.length)) :
    ∃ named, named = (Completion.arrange (completion place results.length) results).insertionSort
        nameLe ∧
      named.Perm results ∧
      (splitResults executor { world with completion := completion } below spec index msg vars
        place).outcome = .ok named ∧
      joinObject executor world named =
        .ok (world.memberOrder.members (named.map fun result => (result.1, value result))) := by
  have same := (List.perm_insertionSort nameLe
    (Completion.arrange (completion place results.length) results)).trans
      (Completion.arrange_perm order)
  refine ⟨_, rfl, same, ?_, ?_⟩
  · exact @splitResults_of_results executor { world with completion := completion } below index msg
      vars place spec json results read fits ran
  · exact joinObject_of_values executor world fun result isResult =>
      converted result (same.mem_iff.mp isResult)

theorem joinsInto_of_aligned (aligned : Aligned (results.map Prod.fst))
    (apart : world.memberOrder = .asInserted → NumbersApart (results.map Prod.fst)) :
    JoinsInto executor world below spec index msg vars place results.length
      (world.memberOrder.members
        ((results.insertionSort nameLe).map fun result => (result.1, value result))) := by
  intro completion order
  obtain ⟨named, isNamed, same, split, joined⟩ :=
    joined_of_results read fits ran converted order
  have sorted : world.memberOrder.members (named.map fun result => (result.1, value result)) =
      world.memberOrder.members
        ((results.insertionSort nameLe).map fun result => (result.1, value result)) := by
    cases isOrder : world.memberOrder with
    | byKey =>
      refine ofList_eq_of_perm ?_ (entries_distinct read ran same)
      exact (same.trans (List.perm_insertionSort nameLe results).symm).map _
    | asInserted =>
      -- No two results are alike to the comparison, so every order sorts them alike.
      have inside : ∀ result ∈ results, result.1 ∈ results.map Prod.fst :=
        fun result member => List.mem_map_of_mem member
      rw [isNamed, ← Sorting.insertionSort_eq_of_perm (Completion.arrange_perm order).symm]
      · intro left _ right _
        exact nameLe_total left right
      · intro left isLeft middle isMiddle right isRight
        exact nameLe_trans_of_aligned aligned (inside _ isLeft) (inside _ isMiddle)
          (inside _ isRight)
      · intro left isLeft right isRight le ge
        exact List.inj_on_of_nodup_map (results_distinct read ran) isLeft isRight
          (name_eq_of_nameLe (apart isOrder) (inside _ isLeft) (inside _ isRight) le ge)
  rw [sorted] at joined
  exact ⟨named, split, joined, runSplit_of_joined split joined⟩

/-- Where members keep the order of insertion, two names that are one number stand in the order in
which their elements complete. -/
theorem numbersApart_of_joinsInto {fields : Object} (inserted : world.memberOrder = .asInserted)
    (joins : JoinsInto executor world below spec index msg vars place results.length fields) :
    NumbersApart (results.map Prod.fst) := by
  have names : ∀ completion : Place → Nat → List Nat,
      (completion place results.length).Perm (List.range results.length) →
        fields.map Prod.fst = ((Completion.arrange (completion place results.length)
          results).insertionSort nameLe).map Prod.fst := by
    intro completion order
    obtain ⟨named, split, joined, -⟩ := joins completion order
    obtain ⟨other, isOther, same, split', joined'⟩ :=
      joined_of_results read fits ran converted order
    rw [split] at split'
    cases split'
    rw [joined, inserted, members_asInserted (entries_distinct read ran same)] at joined'
    cases joined'
    rw [List.map_map, isOther]
    rfl
  have inOrder := names (fun _ count => List.range count) (.refl _)
  have reversed := names (fun _ count => (List.range count).reverse) (List.reverse_perm _)
  rw [Completion.arrange_range] at inOrder
  rw [Completion.arrange, List.filterMap_reverse] at reversed
  rw [show (List.range results.length).filterMap (fun task => results[task]?) = results from
    Completion.arrange_range results] at reversed
  have distinct : (fields.map Prod.fst).Nodup := by
    rw [inOrder]
    exact ((List.perm_insertionSort nameLe results).map Prod.fst).nodup_iff.mpr
      (results_distinct read ran)
  have swapped : ∀ first ∈ results, ∀ second ∈ results, nameLe first second → nameLe second first →
      ¬ [first, second] <+ results := by
    intro first _ second _ le ge stands
    have before : [first.1, second.1] <+ fields.map Prod.fst := by
      rw [inOrder]
      exact (List.pair_sublist_insertionSort le stands).map Prod.fst
    have behind : [second.1, first.1] <+ fields.map Prod.fst := by
      rw [reversed]
      exact (List.pair_sublist_insertionSort ge stands.reverse).map Prod.fst
    exact Sorting.not_pair_sublist_swap distinct before behind
  intro left isLeft right isRight number leftRead rightRead
  obtain ⟨first, isFirst, rfl⟩ := List.mem_map.mp isLeft
  obtain ⟨second, isSecond, rfl⟩ := List.mem_map.mp isRight
  have le : nameLe first second := (nameLe_of_numbers leftRead rightRead).mpr (Nat.le_refl _)
  have ge : nameLe second first := (nameLe_of_numbers rightRead leftRead).mpr (Nat.le_refl _)
  by_contra differ
  have apart : first ≠ second := fun same => differ (congrArg Prod.fst same)
  rcases Sorting.pair_sublist_of_mem isFirst isSecond apart with stands | stands
  · exact swapped first isFirst second isSecond le ge stands
  · exact swapped second isSecond first isFirst ge le stands

end Restored

/-- The results go back in order by a total preorder of the elements' names, and into one member
for each element with its own result, in one order whatever order the elements complete in,
exactly where no text comes between two numbers that it puts the other way round and, if members
keep the order of insertion, no two names are the same number. -/
theorem split_restores_order_iff (executor : Executor) (world : World) (below : Runner)
    (spec : PipelineSpec) (index : Nat) (msg : Message) (vars : Object) (place : Place)
    (json : Value) (results : List (Str × Message)) (value : Str × Message → Value)
    (read : splitInput executor world msg = .ok json)
    (fits : (splitElements json).length ≤ executor.limits.maxFanout)
    (ran : (splitElements json).map (fun element =>
      (runElement world below (afterSplit spec index) index msg vars place element).outcome) =
        results.map .ok)
    (converted : ∀ result ∈ results, resultValue executor world result.2 = .ok (value result)) :
    (OrdersNames ((splitElements json).map Prod.fst) ∧
      ∃ fields : Object,
        (fields.map Prod.fst).Perm ((splitElements json).map Prod.fst) ∧
        (∀ result ∈ results, fields.get? result.1 = some (value result)) ∧
        JoinsInto executor world below spec index msg vars place (splitElements json).length
          fields) ↔
      Aligned ((splitElements json).map Prod.fst) ∧
        (world.memberOrder = .asInserted → NumbersApart ((splitElements json).map Prod.fst)) := by
  have count : results.length = (splitElements json).length := by
    have lengths := congrArg List.length ran
    rwa [List.length_map, List.length_map, eq_comm] at lengths
  rw [← results_names ran, ← count]
  constructor
  · rintro ⟨orders, fields, -, -, joins⟩
    exact ⟨aligned_of_ordersNames msg orders, fun inserted =>
      numbersApart_of_joinsInto read fits ran converted inserted joins⟩
  · rintro ⟨aligned, apart⟩
    have sorted := List.perm_insertionSort nameLe results
    have distinct : (((results.insertionSort nameLe).map fun result =>
        (result.1, value result)).map Prod.fst).Nodup := entries_distinct read ran sorted
    have members := members_of_distinct world.memberOrder distinct
    refine ⟨ordersNames_of_aligned aligned, _, members.1.trans ?_, ?_,
      joinsInto_of_aligned read fits ran converted aligned apart⟩
    · rw [List.map_map]
      exact sorted.map Prod.fst
    · intro result isResult
      exact members.2 _ (List.mem_map.mpr ⟨result, sorted.mem_iff.mpr isResult, rfl⟩)

/-- A request whose body is an array of two elements. -/
def pairRequest : Message :=
  { Message.request .post "/pipelines/p" "acme" "trace" with
    body := some (Body.fromJson Tagged.codec (.arr [.null, .bool true])) }

/-- What each of the two elements runs on. -/
def pairElement (name : Str) (element : Value) : Str × Message :=
  (name, { cloneWithBody pairRequest (some (Body.fromJson Tagged.codec element)) with
    name := some name })

/-- The runs of elements that hand on what they are given, in a build that keeps the order of
insertion. -/
def insertingWorld : World :=
  { World.succeeding with memberOrder := .asInserted }

def handsOn : Runner :=
  fun _ msg vars _ _ => pure (.next msg, vars)

theorem array_of_two_is_joined :
    ∃ fields : Object, (fields.map Prod.fst).Perm ["0", "1"] ∧
      JoinsInto (.plain .default) insertingWorld handsOn (.serial none [Step.splitting]) 0
        pairRequest [] .root 2 fields := by
  have aligned : Aligned ["0", "1"] := aligned_of_numbers (by decide)
  have apart : NumbersApart ["0", "1"] := by
    intro left isLeft right isRight number leftRead rightRead
    fin_cases isLeft <;> fin_cases isRight <;> first
      | rfl
      | exact absurd (leftRead.trans rightRead.symm) (by decide)
  obtain ⟨-, fields, names, -, joins⟩ := (split_restores_order_iff (.plain .default)
    insertingWorld handsOn (.serial none [Step.splitting]) 0 pairRequest [] .root
    (.arr [.null, .bool true]) [pairElement "0" .null, pairElement "1" (.bool true)]
    (fun result => if result.1 = ("0" : Str) then .null else .bool true)
    (by rfl) (by decide) (by rfl) (by
      intro result isResult
      fin_cases isResult
      · rfl
      · rfl)).mpr ⟨aligned, fun _ => apart⟩
  exact ⟨fields, names, joins⟩

/-- A request whose body is an object with two names for one number. -/
def twinRequest : Message :=
  { pairRequest with
    body := some (Body.fromJson Tagged.codec (.obj [("01", .null), ("1", .null)])) }

/-- The names of the joined members, by the order in which the elements complete. -/
def joinedNames (order : List Nat) : Option (List Str) :=
  (splitResults (.plain .default) { insertingWorld with completion := fun _ _ => order } handsOn
    (.serial none [Step.splitting]) 0 twinRequest [] .root).outcome.toOption.bind fun named =>
      (joinObject (.plain .default) insertingWorld named).toOption.map (List.map Prod.fst)

/-- The keys of one object are compared in a circle: 9 is before 10, which is before 1a, which is
before 9.  And the members 1 and 01 of another are joined in the order in which they complete. -/
theorem keys_are_compared_in_a_circle :
    ¬ OrdersNames ((splitElements (.obj [("10", .null), ("1a", .null), ("9", .null)])).map
      Prod.fst) ∧
    joinedNames [0, 1] = some [("01" : Str), "1"] ∧ joinedNames [1, 0] = some [("1" : Str), "01"] := by
  refine ⟨fun orders => ?_, by decide +kernel, by decide +kernel⟩
  exact aligned_of_ordersNames pairRequest orders "9" (by decide) "10" (by decide) "1a" (by decide)
    9 10 (by decide) (by decide) (by decide) (by decide) (by decide) (by decide)

end Rs2Runtime.Pipeline
