import Rs2Runtime.Pipeline.Invariant

/-!
Contract: what the derived idempotency keys of an invocation identify.

Owns:
- the text of a position, which the executor keeps as its key path;
- when two positions are told apart by their texts;
- that the keys of such positions identify executions, and two runs whose keys do not.

Does not own: the hash, which is assumed to be injective.
-/

namespace Rs2Runtime.Pipeline

open Text Data Json

/-! ## Texts of positions -/

def Crumb.text : Crumb → Str
  | .step index => '/' :: natStr index
  | .element _ name => ("/split[" : Str) ++ name ++ ("]" : Str)

/-- The text of a position. -/
def positionText (position : Position) : Str :=
  position.flatMap Crumb.text

/-- The turn into a step comes last. -/
def EndsInStep (position : Position) : Prop :=
  ∃ outer index, position = outer ++ [.step index]

/-- Where two positions part at elements, the elements are of one split, and the name in the
first is not continued in the second as if it had ended. -/
def NamesApart : Position → Position → Prop
  | .element splitIndex name :: rest, .element otherIndex otherName :: otherRest =>
    splitIndex = otherIndex ∧ ¬ (name ++ ("]/" : Str)) <+: otherName ∧
      (name = otherName → NamesApart rest otherRest)
  | .step index :: rest, .step otherIndex :: otherRest =>
    index = otherIndex → NamesApart rest otherRest
  | _, _ => True

def decideNamesApart : (left right : Position) → Decidable (NamesApart left right)
  | .element splitIndex name :: rest, .element otherIndex otherName :: otherRest =>
    have := decideNamesApart rest otherRest
    inferInstanceAs (Decidable (splitIndex = otherIndex ∧ ¬ (name ++ ("]/" : Str)) <+: otherName ∧
      (name = otherName → NamesApart rest otherRest)))
  | .step index :: rest, .step otherIndex :: otherRest =>
    have := decideNamesApart rest otherRest
    inferInstanceAs (Decidable (index = otherIndex → NamesApart rest otherRest))
  | .element .. :: _, .step _ :: _ => isTrue trivial
  | .step _ :: _, .element .. :: _ => isTrue trivial
  | [], _ => isTrue trivial
  | .step _ :: _, [] => isTrue trivial
  | .element .. :: _, [] => isTrue trivial

instance : DecidableRel NamesApart := decideNamesApart

theorem Crumb.text_step (index : Nat) : (Crumb.step index).text = '/' :: natStr index := rfl

theorem Crumb.text_element (splitIndex : Nat) (name : Str) :
    (Crumb.element splitIndex name).text =
      '/' :: 's' :: 'p' :: 'l' :: 'i' :: 't' :: '[' :: (name ++ [']']) := rfl

theorem positionText_cons (crumb : Crumb) (rest : Position) :
    positionText (crumb :: rest) = crumb.text ++ positionText rest :=
  List.flatMap_cons

/-- One more turn. -/
theorem positionText_concat (position : Position) (crumb : Crumb) :
    positionText (position ++ [crumb]) = positionText position ++ crumb.text := by
  rw [positionText, List.flatMap_append, List.flatMap_singleton]
  rfl

theorem Crumb.text_eq_cons (crumb : Crumb) : ∃ tail, crumb.text = '/' :: tail := by
  cases crumb with
  | step index => exact ⟨_, rfl⟩
  | element splitIndex name => exact ⟨_, rfl⟩

theorem positionText_eq_cons {position : Position} (turns : position ≠ []) :
    ∃ tail, positionText position = '/' :: tail := by
  obtain ⟨crumb, rest, rfl⟩ := List.exists_cons_of_ne_nil turns
  obtain ⟨tail, text⟩ := crumb.text_eq_cons
  exact ⟨tail ++ positionText rest, by rw [positionText_cons, text, List.cons_append]⟩

theorem EndsInStep.ne_nil {position : Position} (ends : EndsInStep position) : position ≠ [] := by
  obtain ⟨outer, index, rfl⟩ := ends
  simp

/-- After an element there is a turn into a step. -/
theorem EndsInStep.of_element {splitIndex : Nat} {name : Str} {rest : Position}
    (ends : EndsInStep (.element splitIndex name :: rest)) : EndsInStep rest := by
  obtain ⟨outer, index, same⟩ := ends
  cases outer with
  | nil => cases same
  | cons crumb outer =>
    cases same
    exact ⟨outer, index, rfl⟩

theorem EndsInStep.of_step {index : Nat} {rest : Position}
    (ends : EndsInStep (.step index :: rest)) : rest = [] ∨ EndsInStep rest := by
  obtain ⟨outer, last, same⟩ := ends
  cases outer with
  | nil =>
    cases same
    exact Or.inl rfl
  | cons crumb outer =>
    cases same
    exact Or.inr ⟨outer, last, rfl⟩

/-! ## Reading a text back -/

/-- The digits of an index end where the text of a position begins. -/
theorem takeWhile_digits (index : Nat) (rest : Position) :
    (natStr index ++ positionText rest).takeWhile Char.isDigit = natStr index := by
  have stops : (positionText rest).takeWhile Char.isDigit = [] := by
    cases rest with
    | nil => rfl
    | cons crumb rest =>
      obtain ⟨tail, text⟩ := positionText_eq_cons (List.cons_ne_nil crumb rest)
      rw [text]
      rfl
  rw [List.takeWhile_append_of_pos fun _ => isDigit_of_mem_natStr, stops, List.append_nil]

theorem step_text_inj {index otherIndex : Nat} {rest otherRest : Position}
    (same : natStr index ++ positionText rest = natStr otherIndex ++ positionText otherRest) :
    index = otherIndex ∧ positionText rest = positionText otherRest := by
  have digits := congrArg (List.takeWhile Char.isDigit) same
  rw [takeWhile_digits, takeWhile_digits] at digits
  rw [digits] at same
  exact ⟨natStr_injective digits, List.append_cancel_left same⟩

theorem step_text_ne_element {index splitIndex : Nat} {name : Str} {rest otherRest : Position}
    (same : positionText (.step index :: rest) =
      positionText (.element splitIndex name :: otherRest)) :
    False := by
  obtain ⟨digit, digits, shown⟩ := List.exists_cons_of_ne_nil
    (show natStr index ≠ [] from Nat.toDigits_ne_nil)
  have isDigit : digit.isDigit = true := isDigit_of_mem_natStr (by rw [shown]; exact List.mem_cons_self)
  rw [positionText_cons, positionText_cons, Crumb.text_element, Crumb.text_step, shown] at same
  simp only [List.cons_append, List.cons.injEq] at same
  rw [same.2.1] at isDigit
  exact absurd isDigit (by decide)

/-- Of two names that are followed by `]/` in one text, one goes on in the other unless they
are equal. -/
theorem name_cut {name otherName rest otherRest : Str}
    (same : name ++ ']' :: '/' :: rest = otherName ++ ']' :: '/' :: otherRest)
    (apart : ¬ (name ++ ("]/" : Str)) <+: otherName) :
    otherName <+: name := by
  rcases List.append_eq_append_iff.mp same with ⟨middle, continued, tail⟩ | ⟨middle, shown, -⟩
  · match middle with
    | [] => exact ⟨[], by rw [continued, List.append_nil, List.append_nil]⟩
    | [_] =>
      simp only [List.cons_append, List.nil_append, List.cons.injEq] at tail
      cases tail.2.1
    | c :: d :: more =>
      simp only [List.cons_append, List.cons.injEq] at tail
      refine (apart ⟨more, ?_⟩).elim
      rw [continued, ← tail.1, ← tail.2.1, List.append_assoc]
      rfl
  · exact ⟨middle, shown.symm⟩

theorem element_text_inj {name otherName rest otherRest : Str}
    (same : name ++ ']' :: '/' :: rest = otherName ++ ']' :: '/' :: otherRest)
    (apart : ¬ (name ++ ("]/" : Str)) <+: otherName)
    (apart' : ¬ (otherName ++ ("]/" : Str)) <+: name) :
    name = otherName ∧ rest = otherRest := by
  have names : name = otherName :=
    (name_cut same.symm apart').eq_of_length_le (name_cut same apart).length_le
  subst names
  simp only [List.append_cancel_left_eq, List.cons.injEq, true_and] at same
  exact ⟨rfl, same⟩

/-- Positions whose names are apart have different texts. -/
theorem positionText_inj {left right : Position} (leftEnds : EndsInStep left)
    (rightEnds : EndsInStep right) (apart : NamesApart left right)
    (apart' : NamesApart right left) (same : positionText left = positionText right) :
    left = right := by
  induction left generalizing right with
  | nil => exact (leftEnds.ne_nil rfl).elim
  | cons crumb rest ih =>
    obtain ⟨other, otherRest, rfl⟩ := List.exists_cons_of_ne_nil rightEnds.ne_nil
    cases crumb with
    | step index =>
      cases other with
      | element splitIndex name => exact (step_text_ne_element same).elim
      | step otherIndex =>
        rw [positionText_cons, positionText_cons] at same
        obtain ⟨rfl, later⟩ := step_text_inj (List.cons.inj same).2
        rcases leftEnds.of_step with rfl | leftEnds
        · have none_left : otherRest = [] := by
            by_contra turns
            obtain ⟨tail, text⟩ := positionText_eq_cons turns
            rw [text] at later
            cases later
          rw [none_left]
        · rcases rightEnds.of_step with rfl | rightEnds
          · obtain ⟨tail, text⟩ := positionText_eq_cons leftEnds.ne_nil
            rw [text] at later
            cases later
          · rw [ih leftEnds rightEnds (apart rfl) (apart' rfl) later]
    | element splitIndex name =>
      cases other with
      | step index => exact (step_text_ne_element same.symm).elim
      | element otherIndex otherName =>
        obtain ⟨tail, text⟩ := positionText_eq_cons leftEnds.of_element.ne_nil
        obtain ⟨otherTail, otherText⟩ := positionText_eq_cons rightEnds.of_element.ne_nil
        rw [positionText_cons, positionText_cons, Crumb.text_element, Crumb.text_element,
          text, otherText] at same
        simp only [List.cons_append, List.append_assoc, List.nil_append,
          List.cons.injEq, true_and] at same
        obtain ⟨rfl, named, laterApart⟩ := apart
        obtain ⟨-, named', laterApart'⟩ := apart'
        obtain ⟨rfl, rfl⟩ := element_text_inj same named named'
        rw [ih leftEnds.of_element rightEnds.of_element (laterApart rfl)
          (laterApart' rfl) (text.trans otherText.symm)]

/-! ## Keys of an invocation -/

/-- The position and the derived key of a request that carries one. -/
def keyedSend : Event → Option (Position × Str)
  | .send place _ _ (some key) _ => some (place.position, key)
  | _ => none

/-- The requests of a trace that carry a derived key. -/
def keyedSends (events : List Event) : List (Position × Str) :=
  events.filterMap keyedSend

/-- Derived keys are equal exactly for requests of one position. -/
def KeysIdentify (events : List Event) : Prop :=
  ∀ left ∈ keyedSends events, ∀ right ∈ keyedSends events,
    left.2 = right.2 ↔ left.1 = right.1

instance (events : List Event) : Decidable (KeysIdentify events) := by
  unfold KeysIdentify
  infer_instance

theorem keyPath_step {place : Place} (known : place.keyPath = positionText place.position)
    (index : Nat) : (place.step index).keyPath = positionText (place.step index).position := by
  rw [Place.step, positionText_concat, ← known]
  rfl

theorem keyPath_element {place : Place} (known : place.keyPath = positionText place.position)
    (index : Nat) (name : Str) :
    (place.element index name).keyPath = positionText (place.element index name).position := by
  have text : (Crumb.element index name).text = ("/split[" : Str) ++ name ++ ("]" : Str) := rfl
  rw [Place.element, positionText_concat, ← known, text]
  simp only [List.append_assoc]

/-- Every place knows the text of its position, and keys are derived from it. -/
def keyContract (executor : Executor) (world : World) : Contract executor world where
  __ := emptyContract executor world
  good := fun place => place.keyPath = positionText place.position
  shows := fun event _ => ∀ sent, keyedSend event = some sent →
    EndsInStep sent.1 ∧ sent.2 = deriveKey world executor.invocationId (positionText sent.1)
  good_step := fun _ index good => keyPath_step good index
  good_element := fun _ index name good => keyPath_element good index name
  good_attempt := fun _ _ good => good
  good_detach := fun _ good => good
  shows_call := by
    intro place index msg vars vars' _ _ sent found
    cases found
  shows_send := by
    rintro spec place index attempt step call headers msg request _ _ good _ _ _ _ _ rfl sent found
    unfold attachedKey at found
    split at found
    · cases found
      exact ⟨⟨place.position, index, rfl⟩,
        congrArg (deriveKey world executor.invocationId) (keyPath_step good index)⟩
    · cases found
  shows_retry := by
    intro place sentUnsafe sentUnsafe' _ sent found
    cases found

theorem deriveKey_injective {world : World} (collisionFree : Function.Injective world.sha256)
    (invocationId : Str) : Function.Injective (deriveKey world invocationId) := by
  intro left right same
  have hashed := collisionFree (toHex_injective same)
  exact utf8_injective (List.append_cancel_left hashed)

/-- In every run whose split elements have names that are apart, the derived keys of two
requests are equal exactly if the requests are sent for one position. -/
theorem auto_keys_identify_executions (executor : Executor) (world : World) (spec : PipelineSpec)
    (msg : Message) (toStep : Option Nat) (collisionFree : Function.Injective world.sha256)
    (apart : ∀ left ∈ keyedSends (run executor world spec msg toStep).events,
      ∀ right ∈ keyedSends (run executor world spec msg toStep).events,
        NamesApart left.1 right.1) :
    KeysIdentify (run executor world spec msg toStep).events := by
  have derived : ∀ sent ∈ keyedSends (run executor world spec msg toStep).events,
      EndsInStep sent.1 ∧
        sent.2 = deriveKey world executor.invocationId (positionText sent.1) := by
    intro sent member
    obtain ⟨event, inRun, found⟩ := List.mem_filterMap.mp member
    exact (keyContract executor world).run_shows ⟨fun _ _ => trivial, rfl, trivial⟩ rfl
      trivial toStep inRun sent found
  intro left leftSent right rightSent
  obtain ⟨leftEnds, leftKey⟩ := derived left leftSent
  obtain ⟨rightEnds, rightKey⟩ := derived right rightSent
  rw [leftKey, rightKey, (deriveKey_injective collisionFree _).eq_iff]
  constructor
  · exact positionText_inj leftEnds rightEnds (apart left leftSent right rightSent)
      (apart right rightSent left leftSent)
  · exact congrArg positionText

/-! ## Runs with shared keys -/

/-- A split over elements that are split again, with calls at both levels. -/
def splitTwice : PipelineSpec :=
  .serial none [
    Step.splitting,
    Step.nested (.serial none [
      Step.splitting,
      Step.callTo "POST" "/a",
      Step.callTo "POST" "/b"]),
    Step.callTo "POST" "/c"]

def splitRequest (body : Value) : Message :=
  { Message.request .post "/pipelines/split" "acme" "trace" with
    body := some (Body.fromJson Tagged.codec body) }

theorem World.answering_collisionFree (codec : Codec) (internal : Place → Nat → Message → Message) :
    Function.Injective (World.answering codec internal).sha256 :=
  Function.injective_id

theorem plain_names_identify :
    KeysIdentify (run (.plain .noRetry) .succeeding splitTwice
      (splitRequest (.object [("x", .object [("y", .null)]), ("z", .arr [.null])])) none).events :=
  auto_keys_identify_executions (.plain .noRetry) .succeeding splitTwice
    (splitRequest (.object [("x", .object [("y", .null)]), ("z", .arr [.null])])) none
    (World.answering_collisionFree _ _) (by decide +kernel)

/-- A run whose splits depend on a captured flag, which the outer retry captures anew. -/
def splitByFlag : PipelineSpec :=
  .serial (some .stop) [
    { Step.callTo "GET" "/flag" with capture := some "$flag" },
    Step.nested (.serial none [
      { Step.splitting with condition := some "$flag" },
      { Step.splitting with condition := some "!$flag" },
      Step.callTo "POST" "/a",
      Step.callTo "POST" "/b"]),
    Step.callTo "GET" "/check"]

/-- Surroundings in which the flag is set for the first attempt only, and the check fails
then. -/
def World.changing : World :=
  .answering Tagged.codec fun place _ request =>
    let first := place.attempts.head? = some 1
    if request.url.path = "/flag" then
      request.okJson Tagged.codec (.bool first)
    else if request.url.path = "/check" ∧ first then
      request.response 503 none
    else
      request.response 200 none

/-- Two calls of different steps share a key: an element name that spells the path of another
element, and splits of different steps over elements of one name. -/
theorem keys_shared_by_different_calls :
    (Function.Injective World.succeeding.sha256 ∧ splitTwice.validate (fun _ => none) = [] ∧
      ¬ KeysIdentify (run (.plain .noRetry) .succeeding splitTwice
        (splitRequest (.object [("x", .object [("y", .null)]), ("x]/0/split[y", .null)]))
        none).events) ∧
    (Function.Injective World.changing.sha256 ∧ splitByFlag.validate (fun _ => none) = [] ∧
      ¬ KeysIdentify (run (.plain { RetryPolicy.default with maxAttempts := 2 }) .changing
        splitByFlag (splitRequest (.arr [.null])) none).events) :=
  ⟨⟨World.answering_collisionFree _ _, by decide +kernel⟩,
    ⟨World.answering_collisionFree _ _, by decide +kernel⟩⟩

end Rs2Runtime.Pipeline
