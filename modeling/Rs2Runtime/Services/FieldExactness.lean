import Rs2Runtime.Json.WellFormed
import Rs2Runtime.Services.FieldRules

/-!
Contract: what enforcement of field rules answers, exactly.

Owns:
- the changes that the rules forbid, and that only those are refused;
- the record an accepted write leaves, field by field;
- that writing back what a caller was shown loses nothing that was hidden.
-/

namespace Rs2Runtime.Services.FieldRules

open Text Data Json

section Answers

/-- The caller may read a field, may not write it, and changes it. -/
def Overreaches (stored : Value) (msg : Message) (fields : Object) (rule : FieldRule) : Prop :=
  rule.readable msg = true ∧ rule.writable msg = false ∧
    fields.get? rule.name ≠ stored.get? rule.name

/-- A rule hides a field from the caller. -/
def Hides (rules : List FieldRule) (msg : Message) (name : Str) : Prop :=
  ∃ rule ∈ rules, rule.name = name ∧ rule.readable msg = false

instance (rules : List FieldRule) (msg : Message) (name : Str) : Decidable (Hides rules msg name) :=
  inferInstanceAs (Decidable (∃ rule ∈ rules, _))

variable {stored : Value} {msg : Message} {rule : FieldRule} {rules : List FieldRule}
  {fields : Object} {name : Str}

theorem hides_cons :
    Hides (rule :: rules) msg name ↔
      (rule.name = name ∧ rule.readable msg = false) ∨ Hides rules msg name :=
  List.exists_mem_cons_iff ..

theorem enforceRules_cons_of_hidden (hidden : rule.readable msg = false) :
    enforceRules stored msg (rule :: rules) fields =
      enforceRules stored msg rules (restoreField fields stored rule.name) := by
  rw [enforceRules, if_pos (by rw [hidden]; rfl)]

theorem enforceRules_cons_of_overreaches (change : Overreaches stored msg fields rule) :
    enforceRules stored msg (rule :: rules) fields = .error (notWritable rule.name) := by
  obtain ⟨readable, unwritable, changed⟩ := change
  rw [enforceRules, if_neg (by simp [readable]), if_pos ⟨by simp [unwritable], changed⟩]

theorem enforceRules_cons_of_readable (readable : rule.readable msg = true)
    (kept : ¬ Overreaches stored msg fields rule) :
    enforceRules stored msg (rule :: rules) fields = enforceRules stored msg rules fields := by
  rw [enforceRules, if_neg (by simp [readable]), if_neg]
  intro change
  exact kept ⟨readable, by simpa using change.1, change.2⟩

/-- Restoring one field is not a change to another. -/
theorem overreaches_restoreField {other : FieldRule} (apart : other.name ≠ rule.name) :
    Overreaches stored msg (restoreField fields stored rule.name) other ↔
      Overreaches stored msg fields other := by
  unfold Overreaches
  rw [get?_restoreField, if_neg apart]

/-- A change that some rule forbids is refused in the name of such a rule. -/
theorem enforceRules_of_overreaches (distinct : (rules.map FieldRule.name).Nodup)
    (member : rule ∈ rules) (change : Overreaches stored msg fields rule) :
    ∃ refused ∈ rules, Overreaches stored msg fields refused ∧
      enforceRules stored msg rules fields = .error (notWritable refused.name) := by
  induction rules generalizing fields with
  | nil => cases member
  | cons first rules ih =>
    obtain ⟨fresh, distinct⟩ := List.nodup_cons.mp distinct
    have apart : ∀ other ∈ rules, other.name ≠ first.name := by
      intro other later same
      exact fresh (List.mem_map.mpr ⟨other, later, same⟩)
    by_cases refused : Overreaches stored msg fields first
    · exact ⟨first, List.mem_cons_self, refused, enforceRules_cons_of_overreaches refused⟩
    · have later : rule ∈ rules := by
        apply (List.mem_cons.mp member).resolve_left
        intro same
        exact refused (same ▸ change)
      cases readable : first.readable msg with
      | true =>
        rw [enforceRules_cons_of_readable readable refused]
        obtain ⟨other, inside, answer⟩ := ih distinct later change
        exact ⟨other, List.mem_cons_of_mem first inside, answer⟩
      | false =>
        rw [enforceRules_cons_of_hidden readable]
        obtain ⟨other, inside, overreaching, answer⟩ :=
          ih distinct later ((overreaches_restoreField (apart rule later)).mpr change)
        rw [overreaches_restoreField (apart other inside)] at overreaching
        exact ⟨other, List.mem_cons_of_mem first inside, overreaching, answer⟩

/-- A change that no rule forbids passes: hidden fields have their stored values in the
result, and the others those of the record written. -/
theorem enforceRules_of_permitted (distinct : (rules.map FieldRule.name).Nodup)
    (permitted : ∀ rule ∈ rules, ¬ Overreaches stored msg fields rule) :
    ∃ result, enforceRules stored msg rules fields = .ok result ∧
      ∀ name, result.get? name =
        if Hides rules msg name then stored.get? name else fields.get? name := by
  induction rules generalizing fields with
  | nil =>
    refine ⟨fields, rfl, ?_⟩
    intro name
    rw [if_neg (by simp [Hides])]
  | cons first rules ih =>
    obtain ⟨fresh, distinct⟩ := List.nodup_cons.mp distinct
    rw [List.forall_mem_cons] at permitted
    obtain ⟨kept, permitted⟩ := permitted
    cases readable : first.readable msg with
    | true =>
      obtain ⟨result, passes, values⟩ := ih distinct permitted
      rw [enforceRules_cons_of_readable readable kept]
      refine ⟨result, passes, ?_⟩
      intro name
      simp only [values name, hides_cons, readable, Bool.true_eq_false, and_false, false_or]
    | false =>
      have later : ∀ rule ∈ rules,
          ¬ Overreaches stored msg (restoreField fields stored first.name) rule := by
        intro rule member
        rw [overreaches_restoreField]
        · exact permitted rule member
        · intro same
          exact fresh (List.mem_map.mpr ⟨rule, member, same⟩)
      obtain ⟨result, passes, values⟩ := ih distinct later
      rw [enforceRules_cons_of_hidden readable]
      refine ⟨result, passes, ?_⟩
      intro name
      rw [values name, get?_restoreField]
      by_cases inLater : Hides rules msg name
      · rw [if_pos inLater, if_pos (hides_cons.mpr (.inr inLater))]
      · rw [if_neg inLater]
        by_cases same : name = first.name
        · rw [if_pos same, same, if_pos (hides_cons.mpr (.inl ⟨rfl, readable⟩))]
        · rw [if_neg same, if_neg]
          intro hidden
          rcases hides_cons.mp hidden with ⟨isFirst, -⟩ | hidden
          · exact same isFirst.symm
          · exact inLater hidden

theorem name_of_ruleOf {property : Str × Value} (stated : ruleOf property = some rule) :
    rule.name = property.1 := by
  dsimp only [ruleOf] at stated
  split at stated
  · rw [← Option.some.inj stated]
  · cases stated

/-- The rules of a schema are about different fields. -/
theorem nodup_fieldRules {schema : Value} (wellFormed : schema.WellFormed) :
    ((fieldRules schema).map FieldRule.name).Nodup := by
  unfold fieldRules
  split
  · exact List.nodup_nil
  next properties known =>
    obtain ⟨value, found, isObject⟩ := Option.bind_eq_some_iff.mp known
    cases schema with
    | obj members =>
      have inside : value.WellFormed := Value.WellFormed.get? wellFormed found
      cases value with
      | obj fields =>
        cases isObject
        have keys := List.pairwise_map.mp inside.1.nodup
        apply List.pairwise_map.mpr
        rw [List.pairwise_filterMap]
        apply keys.imp
        intro one other apart rule stated rule' stated'
        rw [name_of_ruleOf stated, name_of_ruleOf stated']
        exact apart
      | null | bool | num | str | arr => cases isObject
    | null | bool | num | str | arr => cases found

theorem get?_redactRules (shown : ¬ Hides rules msg name) :
    (redactRules msg rules fields).get? name = fields.get? name := by
  induction rules generalizing fields with
  | nil => rfl
  | cons rule rules ih =>
    rw [hides_cons, not_or] at shown
    rw [redactRules, ih shown.2]
    split
    next => rfl
    next hidden =>
      rw [OrderedMap.get?_erase_of_ne]
      rintro rfl
      exact shown.1 ⟨rfl, by simpa using hidden⟩

end Answers

/-- Salaries are for the `hr` role only, and grades for others to read. -/
def staffSchema : Value :=
  .obj [("properties", .obj [
    ("grade", .obj [("x-rs-write", .str "hr")]),
    ("salary", .obj [("x-rs-read", .str "hr")])])]

theorem wellFormed_staffSchema : staffSchema.WellFormed := by
  have single : ∀ (key : Str) (value : Value), OrderedMap.Ordered [(key, value)] :=
    fun key value => List.pairwise_singleton _ key
  have ordered : ("grade" : Str) < ("salary" : Str) := by decide
  refine ⟨single _ _, ⟨?_, ⟨single _ _, trivial, trivial⟩, ⟨single _ _, trivial, trivial⟩,
    trivial⟩, trivial⟩
  exact List.pairwise_pair.mpr ordered

def staffRecord : Object :=
  [("grade", .num (.int 3)), ("name", .str "Ann"), ("salary", .num (.int 100))]

def anonymousPut : Message :=
  .request .put "/people/ann" "acme" "trace"

/-- Every write of an object over a schema's field rules is either refused, in the name of a
field that the caller may read and not write and that the write changes, or no such field is
changed and the write passes with the stored values of the hidden fields and the given values
of all others. -/
theorem write_rules_are_exact {schema : Value} (wellFormed : schema.WellFormed)
    (fields : Object) (stored : Value) (msg : Message) :
    (∃ rule ∈ fieldRules schema, Overreaches stored msg fields rule ∧
        enforceWriteRules (.obj fields) stored schema msg = .error (notWritable rule.name)) ∨
      ((∀ rule ∈ fieldRules schema, ¬ Overreaches stored msg fields rule) ∧
        ∃ result : Object, enforceWriteRules (.obj fields) stored schema msg = .ok (.obj result) ∧
          ∀ name, result.get? name =
            if Hidden schema msg name then stored.get? name else fields.get? name) := by
  have distinct := nodup_fieldRules wellFormed
  by_cases refused : ∃ rule ∈ fieldRules schema, Overreaches stored msg fields rule
  · left
    obtain ⟨rule, member, change⟩ := refused
    obtain ⟨other, inside, overreaching, answer⟩ :=
      enforceRules_of_overreaches distinct member change
    refine ⟨other, inside, overreaching, ?_⟩
    rw [enforceWriteRules, answer]
    rfl
  · right
    have permitted : ∀ rule ∈ fieldRules schema, ¬ Overreaches stored msg fields rule := by
      intro rule member change
      exact refused ⟨rule, member, change⟩
    obtain ⟨result, passes, values⟩ := enforceRules_of_permitted distinct permitted
    refine ⟨permitted, result, ?_, values⟩
    rw [enforceWriteRules, passes]
    rfl

/-- An anonymous caller who raises a grade is refused. -/
theorem raised_grade_is_refused :
    ∃ rule ∈ fieldRules staffSchema,
      Overreaches (.obj staffRecord) anonymousPut
        [("grade", .num (.int 4))] rule := by
  rcases write_rules_are_exact wellFormed_staffSchema [("grade", .num (.int 4))]
    (.obj staffRecord) anonymousPut with
    ⟨rule, member, change, -⟩ | ⟨permitted, -⟩
  · exact ⟨rule, member, change⟩
  · exact absurd ⟨by decide, by decide, by decide⟩
      (permitted ⟨"grade", none, some "hr"⟩ (by decide))

/-- Writing back what a caller was shown of a record, with values for fields that are open to
them, is accepted and gives the record those values: nothing that was hidden is lost. -/
theorem write_back_is_lossless {schema : Value} (wellFormed : schema.WellFormed)
    (record : Object) (msg : Message) (edits : Object)
    (own : ∀ edit ∈ edits, ¬ Protected schema msg edit.1) :
    ∃ shown result : Object, redactFields (.obj record) schema msg = .obj shown ∧
      enforceWriteRules (.obj (shown.extend edits)) (.obj record) schema msg =
        .ok (.obj result) ∧
      ∀ name, result.get? name = (record.extend edits).get? name := by
  have distinct := nodup_fieldRules wellFormed
  let shown := redactRules msg (fieldRules schema) record
  have untouched : ∀ name, Protected schema msg name →
      OrderedMap.get? edits.reverse name = none := by
    intro name held
    rw [OrderedMap.get?_eq_none, List.map_reverse, List.mem_reverse]
    intro edited
    obtain ⟨edit, member, rfl⟩ := List.mem_map.mp edited
    exact own edit member held
  have permitted : ∀ rule ∈ fieldRules schema,
      ¬ Overreaches (.obj record) msg (shown.extend edits) rule := by
    rintro rule member ⟨readable, unwritable, changed⟩
    apply changed
    rw [OrderedMap.get?_extend, untouched rule.name ⟨rule, member, rfl, .inr unwritable⟩]
    apply get?_redactRules
    rintro ⟨other, inside, same, hidden⟩
    have isRule : other = rule := List.inj_on_of_nodup_map distinct inside member same
    rw [isRule, readable] at hidden
    cases hidden
  obtain ⟨result, passes, values⟩ := enforceRules_of_permitted distinct permitted
  refine ⟨shown, result, rfl, ?_, ?_⟩
  · rw [enforceWriteRules, passes]
    rfl
  · intro name
    rw [values name]
    by_cases hidden : Hides (fieldRules schema) msg name
    · have held : Protected schema msg name := by
        obtain ⟨rule, member, named, unreadable⟩ := hidden
        exact ⟨rule, member, named, .inl unreadable⟩
      rw [if_pos hidden, OrderedMap.get?_extend, untouched name held]
      rfl
    · rw [if_neg hidden, OrderedMap.get?_extend, OrderedMap.get?_extend, get?_redactRules hidden]

/-- An anonymous caller renames a person whose salary they never saw. -/
theorem renaming_keeps_salary :
    ∃ shown result : Object,
      redactFields (.obj staffRecord) staffSchema
        anonymousPut = .obj shown ∧
      enforceWriteRules (.obj (shown.extend [("name", .str "Anna")])) (.obj staffRecord)
        staffSchema anonymousPut = .ok (.obj result) ∧
      ∀ name, result.get? name = (staffRecord.extend [("name", .str "Anna")]).get? name :=
  write_back_is_lossless wellFormed_staffSchema staffRecord _ [("name", .str "Anna")]
    (by decide)

end Rs2Runtime.Services.FieldRules
