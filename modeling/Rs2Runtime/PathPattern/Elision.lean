import Rs2Runtime.Json.Codec
import Rs2Runtime.PathPattern.Basic

/-!
Contract: what an elided placeholder takes away from the text of its pattern.

Owns:
- the literals and placeholders of a pattern, read from the pattern alone;
- the texts in which an elided placeholder takes at most the slash that stands before it;
- the patterns and inputs for which the resolution is such a text.

## Where it takes more

The resolution removes a slash from the end of what it has built so far.  Behind a literal that
is the literal's slash.  Directly behind another placeholder it is the end of a value, or of what
an earlier elision has left.
-/

namespace Rs2Runtime.PathPattern

open Text Data Json

/-! ## The pieces of a pattern -/

/-- The placeholders of a pattern, each with the literal before it, and the text behind the last
one. -/
def patternPieces : Nat → Str → List (Str × Str) × Str
  | 0, rest => ([], rest)
  | turns + 1, rest =>
    match splitOnce openMark rest with
    | none => ([], rest)
    | some (before, after) =>
      match splitOnce closeMark after with
      | none => ([], rest)
      | some (interior, remaining) =>
        ((before, interior) :: (patternPieces turns remaining).1, (patternPieces turns remaining).2)

/-- A placeholder with the literal before it, evaluated. -/
def Evaluates (codec : Codec) (url : UrlView) (data : Object) (piece : Str × Str)
    (token : Str × Token) : Prop :=
  token.1 = piece.1 ∧ evalToken codec piece.2 url data = .ok token.2

/-- One turn of the resolution. -/
def fillStep (out : Str) (token : Str × Token) : Str :=
  match token.2 with
  | .value text => out ++ token.1 ++ text
  | .elide => popSlash (out ++ token.1)

variable {text : Str} {token : Str × Token} {tokens : List (Str × Token)}

/-- The resolution reads the pattern only: its values are not scanned again. -/
theorem resolveLoop_eq_foldl {codec : Codec} {pattern : Str} {url : UrlView} {data : Object}
    {turns : Nat} {out rest : Str}
    (resolved : resolveLoop codec pattern url data turns out rest = .ok text) :
    ∃ tokens, List.Forall₂ (Evaluates codec url data) (patternPieces turns rest).1 tokens ∧
      text = tokens.foldl fillStep out ++ (patternPieces turns rest).2 := by
  induction turns generalizing out rest with
  | zero =>
    cases resolved
    exact ⟨[], .nil, rfl⟩
  | succ turns ih =>
    unfold resolveLoop at resolved
    unfold patternPieces
    cases opened : splitOnce openMark rest with
    | none =>
      rw [opened] at resolved
      cases resolved
      exact ⟨[], .nil, rfl⟩
    | some parts =>
      obtain ⟨before, after⟩ := parts
      simp only [opened] at resolved ⊢
      cases closed : splitOnce closeMark after with
      | none =>
        rw [closed] at resolved
        cases resolved
      | some parts =>
        obtain ⟨interior, remaining⟩ := parts
        simp only [closed] at resolved ⊢
        cases evaluated : evalToken codec interior url data with
        | error message =>
          rw [evaluated] at resolved
          cases resolved
        | ok token =>
          rw [evaluated] at resolved
          have later : resolveLoop codec pattern url data turns (fillStep out (before, token))
              remaining = .ok text := by
            cases token <;> exact resolved
          obtain ⟨tokens, evaluates, filled⟩ := ih later
          exact ⟨(before, token) :: tokens, .cons ⟨rfl, evaluated⟩ evaluates, filled⟩

/-! ## What a placeholder may take away -/

/-- The text of a placeholder and the literal before it: an elided placeholder takes at most one
slash at the end of the literal. -/
def Contributes (token : Str × Token) (text : Str) : Prop :=
  match token.2 with
  | .value value => text = token.1 ++ value
  | .elide => text = token.1 ∨ text ++ ['/'] = token.1

/-- A text made of the literals and values in their order. -/
def Renders (tokens : List (Str × Token)) (tail text : Str) : Prop :=
  ∃ texts, List.Forall₂ Contributes tokens texts ∧ text = texts.flatten ++ tail

/-- The literal that follows an elided placeholder. -/
def literalAhead (later : List (Str × Token)) (tail : Str) : Str :=
  (later.head?.map Prod.fst).getD tail

/-- A literal put in front of what follows. -/
def putBefore (literal : Str) (later : List (Str × Token)) (tail : Str) :
    List (Str × Token) × Str :=
  match later with
  | [] => ([], literal ++ tail)
  | token :: later => ((literal ++ token.1, token.2) :: later, tail)

/-- An elided placeholder takes away itself and at most the slash before it.  One that is a whole
segment leaves the pattern without that segment, in which the slash behind it still stands
between its neighbours. -/
structure ElidesItself (tokens : List (Str × Token)) (tail text : Str) : Prop where
  renders : Renders tokens tail text
  withoutSegment : ∀ earlier before later,
    tokens = earlier ++ (before ++ ['/'], .elide) :: later →
      (literalAhead later tail).head? = some '/' ∨ later = [] ∧ tail = [] →
        Renders (earlier ++ (putBefore before later tail).1) (putBefore before later tail).2 text

/-- The text of a placeholder and the literal before it, without the slash an elided one takes. -/
def taken (token : Str × Token) : Str :=
  match token.2 with
  | .value text => token.1 ++ text
  | .elide => popSlash token.1

/-- An elided placeholder with no literal before it does not follow a slash. -/
def OwnSlash (tokens : List (Str × Token)) : Prop :=
  ∀ index, tokens[index]? = some ([], .elide) →
    ((tokens.take index).flatMap taken).getLast? ≠ some '/'

theorem popSlash_append (out : Str) {literal : Str} (present : literal ≠ []) :
    popSlash (out ++ literal) = out ++ popSlash literal := by
  unfold popSlash
  rw [List.getLast?_append_of_ne_nil out present]
  split
  · exact List.dropLast_append_of_ne_nil present
  · rfl

theorem length_popSlash_le (out : Str) : (popSlash out).length ≤ out.length := by
  unfold popSlash
  split
  · exact (List.dropLast_sublist out).length_le
  · exact le_rfl

theorem contributes_taken (token : Str × Token) : Contributes token (taken token) := by
  obtain ⟨before, value | _⟩ := token
  · rfl
  · show popSlash before = before ∨ popSlash before ++ ['/'] = before
    unfold popSlash
    split
    next slash =>
      right
      rw [List.getLast?_eq_some_iff] at slash
      obtain ⟨start, rfl⟩ := slash
      rw [List.dropLast_concat]
    next => exact .inl rfl

theorem length_taken_le (contributes : Contributes token text) :
    (taken token).length ≤ text.length := by
  obtain ⟨before, value | _⟩ := token
  · cases contributes
    exact le_rfl
  · rcases contributes with rfl | rfl
    · exact length_popSlash_le text
    · show (popSlash (text ++ ['/'])).length ≤ text.length
      rw [popSlash_append_slash]

theorem renders_taken (tokens : List (Str × Token)) (tail : Str) :
    Renders tokens tail (tokens.flatMap taken ++ tail) := by
  refine ⟨tokens.map taken, ?_, rfl⟩
  rw [List.forall₂_map_right_iff]
  exact List.forall₂_same.mpr fun token _ => contributes_taken token

theorem Renders.length_le {tail : Str} (renders : Renders tokens tail text) :
    (tokens.flatMap taken ++ tail).length ≤ text.length := by
  obtain ⟨texts, contribute, rfl⟩ := renders
  induction contribute with
  | nil => exact le_rfl
  | cons contributes _ ih =>
    have first := length_taken_le contributes
    simp only [List.flatMap_cons, List.flatten_cons, List.length_append] at ih ⊢
    omega

/-! ## What the resolution takes away -/

theorem length_fillStep_le (out : Str) (token : Str × Token) :
    (fillStep out token).length ≤ out.length + (taken token).length := by
  obtain ⟨before, value | _⟩ := token
  · simp [fillStep, taken]
  · by_cases empty : before = []
    · subst empty
      have shorter := length_popSlash_le (out ++ [])
      simpa [fillStep, taken, popSlash] using shorter
    · show (popSlash (out ++ before)).length ≤ out.length + (popSlash before).length
      rw [popSlash_append out empty, List.length_append]

/-- A turn adds the text of its placeholder, unless the placeholder follows a slash that is not in
the literal before it. -/
theorem fillStep_eq {out : Str} (own : token = ([], .elide) → out.getLast? ≠ some '/') :
    fillStep out token = out ++ taken token := by
  obtain ⟨before, value | _⟩ := token
  · exact List.append_assoc out before value
  · by_cases empty : before = []
    · subst empty
      show popSlash (out ++ []) = out ++ []
      rw [List.append_nil, popSlash, if_neg (own rfl)]
    · exact popSlash_append out empty

theorem ownSlash_concat :
    OwnSlash (tokens ++ [token]) ↔ OwnSlash tokens ∧
      (token = ([], .elide) → (tokens.flatMap taken).getLast? ≠ some '/') := by
  constructor
  · intro own
    constructor
    · intro index found
      have inside : index < tokens.length := (List.getElem?_eq_some_iff.mp found).1
      have kept := own index (by rw [List.getElem?_append_left inside, found])
      rwa [List.take_append_of_le_length inside.le] at kept
    · intro last
      have kept := own tokens.length (by rw [List.getElem?_concat_length, last])
      rwa [List.take_left] at kept
  · rintro ⟨own, last⟩ index found
    rcases Nat.lt_or_ge index tokens.length with inside | beyond
    · rw [List.getElem?_append_left inside] at found
      rw [List.take_append_of_le_length inside.le]
      exact own index found
    · have atEnd : index = tokens.length := by
        have bound := (List.getElem?_eq_some_iff.mp found).1
        rw [List.length_append, List.length_singleton] at bound
        omega
      subst atEnd
      rw [List.getElem?_concat_length] at found
      rw [List.take_left]
      exact last (Option.some.inj found)

/-- The run lemma: under the condition, the resolution joins the texts of the placeholders. -/
theorem foldl_fillStep_eq (own : OwnSlash tokens) :
    tokens.foldl fillStep [] = tokens.flatMap taken := by
  induction tokens using List.reverseRecOn with
  | nil => rfl
  | append_singleton tokens token ih =>
    obtain ⟨earlier, last⟩ := ownSlash_concat.mp own
    rw [List.foldl_concat, ih earlier, fillStep_eq last, List.flatMap_append,
      List.flatMap_singleton]

/-- A slash taken from elsewhere is missing from the length of the text. -/
theorem ownSlash_of_length
    (long : (tokens.flatMap taken).length ≤ (tokens.foldl fillStep []).length) :
    OwnSlash tokens := by
  induction tokens using List.reverseRecOn with
  | nil => exact fun index found => by cases found
  | append_singleton tokens token ih =>
    rw [List.foldl_concat, List.flatMap_append, List.flatMap_singleton, List.length_append] at long
    have step := length_fillStep_le (tokens.foldl fillStep []) token
    have own := ih (by omega)
    refine ownSlash_concat.mpr ⟨own, ?_⟩
    rintro rfl slash
    rw [foldl_fillStep_eq own] at long
    rw [List.getLast?_eq_some_iff] at slash
    obtain ⟨start, ends⟩ := slash
    have shortened : fillStep (start ++ ['/']) ([], .elide) = start := by
      show popSlash (start ++ ['/'] ++ []) = start
      rw [List.append_nil, popSlash_append_slash]
    rw [ends, shortened, List.length_append] at long
    simp only [List.length_singleton] at long
    omega

theorem taken_putBefore (before : Str) {later : List (Str × Token)} {tail : Str}
    (ahead : (literalAhead later tail).head? = some '/' ∨ later = [] ∧ tail = []) :
    (putBefore before later tail).1.flatMap taken ++ (putBefore before later tail).2 =
      before ++ (later.flatMap taken ++ tail) := by
  cases later with
  | nil => rfl
  | cons token later =>
    obtain ⟨literal, value | _⟩ := token
    · simp [putBefore, taken]
    · have present : literal ≠ [] := by
        rintro rfl
        rcases ahead with slash | ⟨nothing, _⟩
        · cases slash
        · cases nothing
      show popSlash (before ++ literal) ++ later.flatMap taken ++ tail = _
      rw [popSlash_append before present]
      simp [taken]

theorem elidesItself_iff (tokens : List (Str × Token)) (tail : Str) :
    ElidesItself tokens tail (tokens.foldl fillStep [] ++ tail) ↔ OwnSlash tokens := by
  constructor
  · intro elides
    have long := elides.renders.length_le
    rw [List.length_append, List.length_append] at long
    exact ownSlash_of_length (by omega)
  · intro own
    rw [foldl_fillStep_eq own]
    refine ⟨renders_taken tokens tail, ?_⟩
    rintro earlier before later rfl ahead
    have cut := renders_taken (earlier ++ (putBefore before later tail).1)
      (putBefore before later tail).2
    rw [List.flatMap_append, List.append_assoc, taken_putBefore before ahead] at cut
    have slash : taken (before ++ ['/'], .elide) = before := popSlash_append_slash before
    rw [List.flatMap_append, List.flatMap_cons, slash]
    simpa only [List.append_assoc] using cut

/-- For every pattern that resolves, the text is that of its literals and values with nothing
taken away but elided placeholders and a slash before each, exactly if no elided placeholder
without a literal before it follows a slash. -/
theorem placeholders_elide_themselves_iff {codec : Codec} {pattern : Str} {url : UrlView}
    {data : Object} {text : Str} (resolved : resolve codec pattern url data = .ok text) :
    ∃ tokens,
      List.Forall₂ (Evaluates codec url data) (patternPieces pattern.length pattern).1 tokens ∧
        (ElidesItself tokens (patternPieces pattern.length pattern).2 text ↔ OwnSlash tokens) := by
  obtain ⟨tokens, evaluates, rfl⟩ := resolveLoop_eq_foldl resolved
  exact ⟨tokens, evaluates, elidesItself_iff tokens _⟩

theorem elided_segment_leaves_one_slash :
    resolve Tagged.codec "a/$\x7bpage?\x7d/b" .empty [] = .ok "a/b" ∧
      ∃ tokens,
        List.Forall₂ (Evaluates Tagged.codec .empty [])
            (patternPieces 12 "a/$\x7bpage?\x7d/b").1 tokens ∧
          (ElidesItself tokens (patternPieces 12 "a/$\x7bpage?\x7d/b").2 "a/b" ↔ OwnSlash tokens) := by
  have resolved : resolve Tagged.codec "a/$\x7bpage?\x7d/b" .empty [] = .ok "a/b" := by
    decide +kernel
  exact ⟨resolved, placeholders_elide_themselves_iff resolved⟩

/-- The slash at the end of a value goes with the placeholder behind it. -/
theorem elision_takes_slash_of_value :
    resolve Tagged.codec "$\x7bdir\x7d$\x7bpage?\x7d" .empty [("dir", .str "x/")] =
        .ok "x" ∧
      ∀ tokens,
        List.Forall₂ (Evaluates Tagged.codec .empty [("dir", .str "x/")])
            (patternPieces 14 "$\x7bdir\x7d$\x7bpage?\x7d").1 tokens →
          ¬ Renders tokens (patternPieces 14 "$\x7bdir\x7d$\x7bpage?\x7d").2 "x" := by
  refine ⟨by decide +kernel, fun tokens evaluates renders => ?_⟩
  have read : patternPieces 14 "$\x7bdir\x7d$\x7bpage?\x7d" =
      ([([], ("dir" : Str)), ([], ("page?" : Str))], []) := by
    decide +kernel
  have dir : evalToken Tagged.codec "dir" .empty [("dir", .str "x/")] = .ok (.value "x/") := by
    decide +kernel
  have page : evalToken Tagged.codec "page?" .empty [("dir", .str "x/")] = .ok .elide := by
    decide +kernel
  rw [read] at evaluates
  obtain _ | ⟨⟨first, value⟩, _ | ⟨⟨second, elided⟩, _ | _⟩⟩ := evaluates
  rw [dir] at value
  rw [page] at elided
  have long := renders.length_le
  rw [read] at long
  simp [taken, first, second, ← Except.ok.inj value, ← Except.ok.inj elided, popSlash] at long

end Rs2Runtime.PathPattern
