import Rs2Runtime.Json.WellFormed
import Rs2Runtime.Listing

/-!
Contract: what a projection keeps of a record.

Owns:
- values told apart by what stands at their paths;
- what stands at each path after a value is written at one;
- that a projection holds what is requested, nothing else, and depends on the set of paths only.
-/

namespace Rs2Runtime.Listing

open Text Data Json

/-! ## Values by their paths -/

theorem lookup_append (path rest : FieldPath) (record : Value) :
    lookup (path ++ rest) record = (lookup path record).bind (lookup rest) := by
  induction path generalizing record with
  | nil => rfl
  | cons segment path ih =>
    rw [List.cons_append, lookup, lookup]
    cases record.get? segment with
    | none => rfl
    | some value => exact ih value

theorem lookup_eq_none_below {path longer : FieldPath} {record : Value} (before : path <+: longer)
    (missing : lookup path record = none) : lookup longer record = none := by
  obtain ⟨rest, rfl⟩ := before
  rw [lookup_append, missing]
  rfl

theorem lookup_cons_obj (fields : Object) (segment : Str) (path : FieldPath) :
    lookup (segment :: path) (.obj fields) = (OrderedMap.get? fields segment).bind (lookup path) :=
  rfl

variable {found value : Value} {head : Str} {rest : FieldPath} {fields' : List FieldPath}

/-- Above a value that is found there are only objects. -/
theorem object_above {path longer : FieldPath} {record : Value} (before : path <+: longer)
    (proper : path ≠ longer) (deep : lookup longer record = some found)
    (here : lookup path record = some value) : ∃ fields, value = .obj fields := by
  obtain ⟨rest, rfl⟩ := before
  rw [lookup_append, here, Option.bind_some] at deep
  cases rest with
  | nil => exact absurd (List.append_nil path).symm proper
  | cons segment rest =>
    cases value with
    | obj fields => exact ⟨fields, rfl⟩
    | _ => cases deep

/-- What stands at a path: an object, or another value itself. -/
def outline : Value → Option Value
  | .obj _ => none
  | other => some other

def outlineAt (value : Value) (path : FieldPath) : Option (Option Value) :=
  (lookup path value).map outline

theorem outlineAt_append (value : Value) (path rest : FieldPath) :
    outlineAt value (path ++ rest) = (lookup path value).bind fun inner => outlineAt inner rest := by
  unfold outlineAt
  rw [lookup_append]
  cases lookup path value <;> rfl

theorem outlineAt_eq_object {path : FieldPath} :
    outlineAt value path = some none ↔ ∃ fields, lookup path value = some (.obj fields) := by
  unfold outlineAt
  cases found : lookup path value with
  | none => simp
  | some other => cases other <;> simp [outline]

/-- Values with the same outlines are equal. -/
theorem eq_of_outlineAt {left right : Value} (wellFormed : left.WellFormed)
    (wellFormed' : right.WellFormed) (same : ∀ path, outlineAt left path = outlineAt right path) :
    left = right := by
  have top := same []
  cases left with
  | obj fields =>
    obtain ⟨fields', isRight⟩ := outlineAt_eq_object.mp top.symm
    cases isRight
    congr 1
    refine OrderedMap.Ordered.ext wellFormed.1 wellFormed'.1 fun key => ?_
    have below (path : FieldPath) := same (key :: path)
    simp only [outlineAt, lookup_cons_obj] at below
    cases found : OrderedMap.get? fields key with
    | none =>
      have missing := below []
      rw [found] at missing
      cases found' : OrderedMap.get? fields' key with
      | none => rfl
      | some other =>
        rw [found'] at missing
        cases missing
    | some value =>
      rw [found] at below
      cases found' : OrderedMap.get? fields' key with
      | none =>
        have missing := below []
        rw [found'] at missing
        cases missing
      | some other =>
        rw [found'] at below
        have smaller : sizeOf value < sizeOf (Value.obj fields) := by
          have inside := List.sizeOf_lt_of_mem (OrderedMap.mem_of_get? found)
          simp only [Prod.mk.sizeOf_spec, Value.obj.sizeOf_spec] at inside ⊢
          omega
        rw [eq_of_outlineAt (wellFormed.get? found) (wellFormed'.get? found') below]
  | _ =>
    cases right with
    | obj fields => cases top
    | _ => exact Option.some.inj (Option.some.inj top)
termination_by sizeOf left

/-! ## Writing at a path -/

/-- The object a path goes on through. -/
def nestedAt (fields : Object) (head : Str) : Object :=
  match OrderedMap.get? fields head with
  | some (.obj nested) => nested
  | _ => []

/-- No value but objects stands in the way of a path. -/
def Unblocked (fields : Object) (path : FieldPath) : Prop :=
  ∀ before, before <+: path → before ≠ path →
    ∀ value, lookup before (.obj fields) = some value → ∃ nested, value = .obj nested

theorem Unblocked.tail {fields : Object} (unblocked : Unblocked fields (head :: rest)) :
    Unblocked (nestedAt fields head) rest := by
  intro before initial proper value found
  have deeper := unblocked (head :: before) (List.cons_prefix_cons.mpr ⟨rfl, initial⟩)
    (fun same => proper (List.cons.inj same).2) value
  rw [lookup_cons_obj] at deeper
  unfold nestedAt at found
  cases member : OrderedMap.get? fields head with
  | none =>
    rw [member] at found
    cases before with
    | nil => exact ⟨[], (Option.some.inj found).symm⟩
    | cons segment before => cases found
  | some inner =>
    rw [member] at found deeper
    cases inner with
    | obj nested => exact deeper found
    | _ =>
      cases before with
      | nil => exact ⟨[], (Option.some.inj found).symm⟩
      | cons segment before => cases found

/-- What is written under the first segment of an unblocked path. -/
def written (fields : Object) (head : Str) (rest : FieldPath) (value : Value) : Value :=
  match rest with
  | [] => value
  | next :: rest => .obj (insertPath (nestedAt fields head) (next :: rest) value)

theorem insertPath_of_unblocked {fields : Object} (unblocked : Unblocked fields (head :: rest))
    (value : Value) :
    insertPath fields (head :: rest) value =
      OrderedMap.insert fields head (written fields head rest value) := by
  cases rest with
  | nil => rfl
  | cons next rest =>
    have first := unblocked [head] (List.cons_prefix_cons.mpr ⟨rfl, List.nil_prefix⟩)
      (fun same => List.cons_ne_nil _ _ (List.cons.inj same).2.symm)
    rw [lookup_cons_obj] at first
    unfold written nestedAt
    rw [insertPath]
    cases member : OrderedMap.get? fields head with
    | none => rfl
    | some inner =>
      rw [member] at first
      obtain ⟨nested, rfl⟩ := first inner rfl
      rfl

theorem lookup_insertPath_cons {fields : Object} (unblocked : Unblocked fields (head :: rest))
    (value : Value) (segment : Str) (path : FieldPath) :
    lookup (segment :: path) (.obj (insertPath fields (head :: rest) value)) =
      if segment = head then lookup path (written fields head rest value)
      else lookup (segment :: path) (.obj fields) := by
  rw [lookup_cons_obj, insertPath_of_unblocked unblocked, OrderedMap.get?_insert, lookup_cons_obj]
  split <;> rfl

/-- At and under the path written stands the value. -/
theorem lookup_insertPath_below {fields : Object} {path : FieldPath} (named : path ≠ [])
    (unblocked : Unblocked fields path) (value : Value) (rest : FieldPath) :
    lookup (path ++ rest) (.obj (insertPath fields path value)) = lookup rest value := by
  induction path generalizing fields with
  | nil => exact absurd rfl named
  | cons head path ih =>
    rw [List.cons_append, lookup_insertPath_cons unblocked, if_pos rfl]
    cases path with
    | nil => rfl
    | cons next path => exact ih (List.cons_ne_nil _ _) unblocked.tail

/-- Above the path written stand objects. -/
theorem lookup_insertPath_above {fields : Object} {path before : FieldPath}
    (unblocked : Unblocked fields path) (value : Value) (initial : before <+: path)
    (proper : before ≠ path) :
    ∃ nested, lookup before (.obj (insertPath fields path value)) = some (.obj nested) := by
  induction path generalizing fields before with
  | nil => exact absurd (List.prefix_nil.mp initial) proper
  | cons head path ih =>
    cases before with
    | nil => exact ⟨_, rfl⟩
    | cons segment before =>
      obtain ⟨rfl, initialRest⟩ := List.cons_prefix_cons.mp initial
      have shorter : before ≠ path := fun same => proper (congrArg (segment :: ·) same)
      rw [lookup_insertPath_cons unblocked, if_pos rfl]
      cases path with
      | nil => exact absurd (List.prefix_nil.mp initialRest) shorter
      | cons next path => exact ih unblocked.tail initialRest shorter

/-- Paths beside the one written keep what they had. -/
theorem lookup_insertPath_apart {fields : Object} {path other : FieldPath}
    (unblocked : Unblocked fields path) (value : Value) (notBelow : ¬path <+: other)
    (notAbove : ¬other <+: path) :
    lookup other (.obj (insertPath fields path value)) = lookup other (.obj fields) := by
  induction path generalizing fields other with
  | nil => exact absurd List.nil_prefix notBelow
  | cons head path ih =>
    cases other with
    | nil => exact absurd List.nil_prefix notAbove
    | cons segment other =>
      rw [lookup_insertPath_cons unblocked]
      split
      case isFalse => rfl
      case isTrue same =>
        subst same
        rw [List.cons_prefix_cons] at notBelow notAbove
        have notBelow := fun initial => notBelow ⟨rfl, initial⟩
        have notAbove := fun initial => notAbove ⟨rfl, initial⟩
        cases path with
        | nil => exact absurd List.nil_prefix notBelow
        | cons next path =>
          refine (ih unblocked.tail notBelow notAbove).trans ?_
          cases other with
          | nil => exact absurd List.nil_prefix notAbove
          | cons deeper other =>
            have first := unblocked [segment] (List.cons_prefix_cons.mpr ⟨rfl, List.nil_prefix⟩)
              (fun same => List.cons_ne_nil _ _ (List.cons.inj same).2.symm)
            rw [lookup_cons_obj] at first
            rw [lookup_cons_obj fields]
            unfold nestedAt
            cases member : OrderedMap.get? fields segment with
            | none => rfl
            | some inner =>
              rw [member] at first
              obtain ⟨nested, rfl⟩ := first inner rfl
              rfl

/-! ## What a projection holds -/

/-- Some requested path is the path or stands above it. -/
def Requested (fields : List FieldPath) (path : FieldPath) : Prop :=
  ∃ requested ∈ fields, requested <+: path

/-- The path leads to a requested one that the record has. -/
def LeadsTo (record : Value) (fields : List FieldPath) (path : FieldPath) : Prop :=
  ∃ requested ∈ fields, path <+: requested ∧ lookup requested record ≠ none

open Classical in
/-- The outline of a projection: the record's at and under what is requested, objects on the way
there, nothing elsewhere. -/
noncomputable def kept (record : Value) (fields : List FieldPath) (path : FieldPath) :
    Option (Option Value) :=
  if Requested fields path then outlineAt record path
  else if LeadsTo record fields path then some none
  else none

section Kept

variable {record : Value} {fields : List FieldPath} {path : FieldPath}

theorem kept_of_requested (requested : Requested fields path) :
    kept record fields path = outlineAt record path :=
  if_pos requested

theorem kept_of_leadsTo (notRequested : ¬Requested fields path)
    (leads : LeadsTo record fields path) : kept record fields path = some none := by
  unfold kept
  rw [if_neg notRequested, if_pos leads]

theorem kept_of_neither (notRequested : ¬Requested fields path)
    (leadsNowhere : ¬LeadsTo record fields path) : kept record fields path = none := by
  unfold kept
  rw [if_neg notRequested, if_neg leadsNowhere]

theorem kept_congr (requested : Requested fields path ↔ Requested fields' path)
    (leads : LeadsTo record fields path ↔ LeadsTo record fields' path) :
    kept record fields path = kept record fields' path := by
  by_cases asked : Requested fields path
  · rw [kept_of_requested asked, kept_of_requested (requested.mp asked)]
  · have asked' := mt requested.mpr asked
    by_cases led : LeadsTo record fields path
    · rw [kept_of_leadsTo asked led, kept_of_leadsTo asked' (leads.mp led)]
    · rw [kept_of_neither asked led, kept_of_neither asked' (mt leads.mpr led)]

variable {last : FieldPath}

theorem requested_concat :
    Requested (fields ++ [last]) path ↔ Requested fields path ∨ last <+: path := by
  unfold Requested
  simp only [List.mem_append, List.mem_singleton, or_and_right, exists_or, exists_eq_left]

theorem leadsTo_concat :
    LeadsTo record (fields ++ [last]) path ↔
      LeadsTo record fields path ∨ path <+: last ∧ lookup last record ≠ none := by
  unfold LeadsTo
  simp only [List.mem_append, List.mem_singleton, or_and_right, exists_or, exists_eq_left]

/-- A path the record lacks requests nothing. -/
theorem kept_concat_of_missing (missing : lookup last record = none) :
    kept record (fields ++ [last]) path = kept record fields path := by
  have leads : LeadsTo record (fields ++ [last]) path ↔ LeadsTo record fields path := by
    rw [leadsTo_concat]
    exact or_iff_left fun reached => reached.2 missing
  by_cases below : last <+: path
  · have absent : outlineAt record path = none := by
      rw [outlineAt, lookup_eq_none_below below missing]
      rfl
    rw [kept_of_requested (requested_concat.mpr (Or.inr below)), absent]
    by_cases requested : Requested fields path
    · rw [kept_of_requested requested, absent]
    · have leadsNowhere : ¬LeadsTo record fields path := by
        rintro ⟨longer, -, initial, present⟩
        exact present (lookup_eq_none_below (below.trans initial) missing)
      rw [kept_of_neither requested leadsNowhere]
  · exact kept_congr (requested_concat.trans (or_iff_left below)) leads

/-- On the way to a value of the record there are objects. -/
theorem kept_above (initial : path <+: last) (proper : path ≠ last)
    (present : lookup last record = some found) :
    kept record (fields ++ [last]) path = some none := by
  by_cases requested : Requested (fields ++ [last]) path
  · rw [kept_of_requested requested, outlineAt]
    cases above : lookup path record with
    | none =>
      rw [lookup_eq_none_below initial above] at present
      cases present
    | some value =>
      obtain ⟨nested, rfl⟩ := object_above initial proper present above
      rfl
  · refine kept_of_leadsTo requested (leadsTo_concat.mpr (Or.inr ⟨initial, ?_⟩))
    rw [present]
    exact Option.some_ne_none found

end Kept

/-- A projection so far blocks no path the record has a value at. -/
theorem unblocked_of_kept {record : Value} {fields : List FieldPath} {last : FieldPath}
    {out : Object} (present : lookup last record = some found)
    (outlined : ∀ path, path ≠ [] → outlineAt (.obj out) path = kept record fields path) :
    Unblocked out last := by
  intro before initial proper value here
  cases before with
  | nil => exact ⟨out, (Option.some.inj here).symm⟩
  | cons segment before =>
    have shape := outlined (segment :: before) (List.cons_ne_nil _ _)
    rw [outlineAt, here, Option.map_some] at shape
    have object : outline value = none := by
      by_cases requested : Requested fields (segment :: before)
      · rw [kept_of_requested requested, outlineAt] at shape
        cases above : lookup (segment :: before) record with
        | none =>
          rw [above] at shape
          cases shape
        | some other =>
          obtain ⟨nested, rfl⟩ := object_above initial proper present above
          rw [above] at shape
          exact Option.some.inj shape
      · rw [kept_of_leadsTo requested] at shape
        · exact Option.some.inj shape
        · by_contra leadsNowhere
          rw [kept_of_neither requested leadsNowhere] at shape
          cases shape
    cases value with
    | obj nested => exact ⟨nested, rfl⟩
    | _ => cases object

/-- One step of a projection adds what one more path requests. -/
theorem outlineAt_projectPath {record : Value} {fields : List FieldPath} {last : FieldPath}
    {out : Object} (named : last ≠ [])
    (outlined : ∀ path, path ≠ [] → outlineAt (.obj out) path = kept record fields path)
    {path : FieldPath} (inside : path ≠ []) :
    outlineAt (.obj (projectPath record out last)) path = kept record (fields ++ [last]) path := by
  unfold projectPath
  cases present : lookup last record with
  | none => exact (outlined path inside).trans (kept_concat_of_missing present).symm
  | some value =>
    have unblocked := unblocked_of_kept present outlined
    by_cases below : last <+: path
    · rw [kept_of_requested (requested_concat.mpr (Or.inr below))]
      obtain ⟨rest, rfl⟩ := below
      rw [outlineAt, lookup_insertPath_below named unblocked, outlineAt_append, present]
      rfl
    · by_cases above : path <+: last
      · have proper : path ≠ last := by
          rintro rfl
          exact below List.prefix_rfl
        rw [kept_above above proper present]
        exact outlineAt_eq_object.mpr (lookup_insertPath_above unblocked value above proper)
      · rw [outlineAt, lookup_insertPath_apart unblocked value below above]
        refine (outlined path inside).trans (kept_congr ?_ ?_)
        · exact (requested_concat.trans (or_iff_left below)).symm
        · exact (leadsTo_concat.trans (or_iff_left fun reached => above reached.1)).symm

/-- What stands at each path of a projection. -/
theorem outlineAt_project (record : Value) {fields : List FieldPath}
    (named : ∀ path ∈ fields, path ≠ []) {path : FieldPath} (inside : path ≠ []) :
    outlineAt (project record fields) path = kept record fields path := by
  unfold project
  induction fields using List.reverseRecOn generalizing path with
  | nil =>
    have nowhere : kept record [] path = none :=
      kept_of_neither (fun ⟨_, member, _⟩ => by cases member) (fun ⟨_, member, _⟩ => by cases member)
    rw [nowhere]
    cases path with
    | nil => exact absurd rfl inside
    | cons segment path => rfl
  | append_singleton fields last ih =>
    rw [List.foldl_append, List.foldl_cons, List.foldl_nil]
    refine outlineAt_projectPath (named last (by simp)) (fun path inside => ?_) inside
    exact ih (fun other member => named other (List.mem_append_left _ member)) inside

/-! ## Projections are well formed -/

theorem wellFormed_lookup {record : Value} {path : FieldPath} (wellFormed : record.WellFormed)
    (present : lookup path record = some found) :
    found.WellFormed := by
  induction path generalizing record with
  | nil =>
    cases present
    exact wellFormed
  | cons segment path ih =>
    cases record with
    | obj fields =>
      rw [lookup_cons_obj] at present
      obtain ⟨inner, member, deeper⟩ := Option.bind_eq_some_iff.mp present
      exact ih (wellFormed.get? member) deeper
    | _ => cases present

theorem wellFormed_insertPath {fields : Object} (wellFormed : (Value.obj fields).WellFormed)
    (inserted : value.WellFormed) (path : FieldPath) :
    (Value.obj (insertPath fields path value)).WellFormed := by
  induction path generalizing fields with
  | nil => exact wellFormed
  | cons head path ih =>
    refine ⟨ordered_insertPath wellFormed.1 _ _, ?_⟩
    cases path with
    | nil => exact Value.wellFormedFields_insert wellFormed.2 inserted
    | cons next path =>
      rw [insertPath]
      cases member : OrderedMap.get? fields head with
      | none =>
        exact Value.wellFormedFields_insert wellFormed.2 (ih ⟨OrderedMap.ordered_nil, trivial⟩)
      | some inner =>
        cases inner with
        | obj nested =>
          exact Value.wellFormedFields_insert wellFormed.2 (ih (wellFormed.get? member))
        | _ => exact wellFormed.2

theorem wellFormed_project {record : Value} (wellFormed : record.WellFormed)
    (fields : List FieldPath) : (project record fields).WellFormed := by
  unfold project
  induction fields using List.reverseRecOn with
  | nil => exact ⟨OrderedMap.ordered_nil, trivial⟩
  | append_singleton fields last ih =>
    rw [List.foldl_append, List.foldl_cons, List.foldl_nil, projectPath]
    cases present : lookup last record with
    | none => exact ih
    | some value => exact wellFormed_insertPath ih (wellFormed_lookup wellFormed present) last

/-! ## The laws of projection -/

theorem lookup_eq_of_outlineAt {left right : Value} (wellFormed : left.WellFormed)
    (wellFormed' : right.WellFormed) {path : FieldPath}
    (same : ∀ rest, outlineAt left (path ++ rest) = outlineAt right (path ++ rest)) :
    lookup path left = lookup path right := by
  simp only [outlineAt_append] at same
  have here := same []
  cases found : lookup path left with
  | none =>
    rw [found] at here
    cases found' : lookup path right with
    | none => rfl
    | some other =>
      rw [found'] at here
      cases here
  | some value =>
    rw [found] at here same
    cases found' : lookup path right with
    | none =>
      rw [found'] at here
      cases here
    | some other =>
      rw [found'] at same
      rw [eq_of_outlineAt (wellFormed_lookup wellFormed found)
        (wellFormed_lookup wellFormed' found') same]

section Laws

variable {record : Value} {fields : List FieldPath}

theorem lookup_project (wellFormed : record.WellFormed) (named : ∀ path ∈ fields, path ≠ [])
    {path : FieldPath} (requested : path ∈ fields) :
    lookup path (project record fields) = lookup path record := by
  refine lookup_eq_of_outlineAt (wellFormed_project wellFormed fields) wellFormed fun rest => ?_
  have inside : path ++ rest ≠ [] := List.append_ne_nil_of_left_ne_nil (named path requested) rest
  rw [outlineAt_project record named inside]
  exact kept_of_requested ⟨path, requested, List.prefix_append path rest⟩

/-- Projections with the same outline below their fields are equal. -/
theorem project_eq_of_kept {record' : Value} (wellFormed : record.WellFormed)
    (wellFormed' : record'.WellFormed) (named : ∀ path ∈ fields, path ≠ [])
    (named' : ∀ path ∈ fields', path ≠ [])
    (same : ∀ path, path ≠ [] → kept record fields path = kept record' fields' path) :
    project record fields = project record' fields' := by
  refine eq_of_outlineAt (wellFormed_project wellFormed fields)
    (wellFormed_project wellFormed' fields') fun path => ?_
  by_cases root : path = []
  · rw [root]
    rfl
  · rw [outlineAt_project record named root, outlineAt_project record' named' root, same path root]

theorem project_project (wellFormed : record.WellFormed) (named : ∀ path ∈ fields, path ≠ []) :
    project (project record fields) fields = project record fields := by
  refine project_eq_of_kept (wellFormed_project wellFormed fields) wellFormed named named
    fun path inside => ?_
  by_cases requested : Requested fields path
  · rw [kept_of_requested requested, outlineAt_project record named inside]
  · have leads : LeadsTo (project record fields) fields path ↔ LeadsTo record fields path := by
      refine exists_congr fun longer => and_congr_right fun member => ?_
      rw [lookup_project wellFormed named member]
    by_cases led : LeadsTo record fields path
    · rw [kept_of_leadsTo requested led, kept_of_leadsTo requested (leads.mpr led)]
    · rw [kept_of_neither requested led, kept_of_neither requested (mt leads.mp led)]

theorem project_congr (wellFormed : record.WellFormed) (named : ∀ path ∈ fields, path ≠ [])
    (same : ∀ path, path ∈ fields' ↔ path ∈ fields) :
    project record fields' = project record fields := by
  refine project_eq_of_kept wellFormed wellFormed (fun path member => ?_) named fun path _ => ?_
  · exact named path ((same path).mp member)
  · exact kept_congr (exists_congr fun longer => and_congr_left fun _ => same longer)
      (exists_congr fun longer => and_congr_left fun _ => same longer)

/-- A value with nothing below it: no object, or an empty one. -/
def IsLeaf (value : Value) : Prop :=
  ∀ key, value.get? key = none

theorem requested_of_leaf (named : ∀ path ∈ fields, path ≠ []) {path : FieldPath}
    (inside : path ≠ []) (found : lookup path (project record fields) = some value)
    (leaf : IsLeaf value) : Requested fields path := by
  by_contra notRequested
  have outlined := outlineAt_project record named inside
  by_cases leads : LeadsTo record fields path
  · -- Below the path the requested one is kept, so the object there has a field.
    obtain ⟨longer, member, initial, present⟩ := leads
    obtain ⟨rest, rfl⟩ := initial
    have below := outlineAt_project record named (named _ member)
    rw [kept_of_requested ⟨_, member, List.prefix_rfl⟩, outlineAt_append, found,
      Option.bind_some] at below
    cases rest with
    | nil => exact notRequested ⟨_, member, by rw [List.append_nil]⟩
    | cons segment rest =>
      rw [outlineAt, lookup, leaf segment] at below
      exact present (Option.map_eq_none_iff.mp below.symm)
  · rw [kept_of_neither notRequested leads, outlineAt, found] at outlined
    cases outlined

/-- A projection agrees with the record at every requested path, has no leaf elsewhere, is its own
projection and depends on nothing but the set of the paths. -/
theorem projection_keeps_requested_fields (wellFormed : record.WellFormed)
    (named : ∀ path ∈ fields, path ≠ []) :
    (∀ path ∈ fields, lookup path (project record fields) = lookup path record) ∧
    (∀ path value, path ≠ [] → lookup path (project record fields) = some value → IsLeaf value →
      ∃ requested ∈ fields, requested <+: path) ∧
    project (project record fields) fields = project record fields ∧
    ∀ fields', (∀ path, path ∈ fields' ↔ path ∈ fields) →
      project record fields' = project record fields := by
  refine ⟨?_, ?_, ?_, ?_⟩
  · intro path requested
    exact lookup_project wellFormed named requested
  · intro path value inside found leaf
    exact requested_of_leaf named inside found leaf
  · exact project_project wellFormed named
  · intro fields' same
    exact project_congr wellFormed named same

end Laws

/-- A record with a nested object, asked for the object and for one field of it. -/
theorem nested_projection_in_both_orders :
    project (.obj [("a", .obj [("b", .bool true), ("c", .null)])]) [["a"], ["a", "b"]] =
      project (.obj [("a", .obj [("b", .bool true), ("c", .null)])]) [["a", "b"], ["a"]] := by
  refine (projection_keeps_requested_fields ?_ ?_).2.2.2 _ ?_
  · refine ⟨?_, ⟨?_, trivial, trivial, trivial⟩, trivial⟩ <;>
      · unfold OrderedMap.Ordered
        decide
  · decide
  · intro path
    simp only [List.mem_cons, List.not_mem_nil, or_false]
    exact or_comm

end Rs2Runtime.Listing
