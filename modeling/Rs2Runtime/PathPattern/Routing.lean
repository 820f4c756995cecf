import Rs2Runtime.Outbound.Dispatch
import Rs2Runtime.PathPattern.Elision
import Rs2Runtime.Router.Path

/-!
Contract: where a resolved call URL is dispatched, relative to the literal text its pattern
starts with.

Owns:
- resolution as the rendering of literal text, placeholder values and elisions;
- the target of a resolved call;
- the exact condition under which a call stays below the literal start of its pattern.
-/

namespace Rs2Runtime.PathPattern

open Text Data Json

/-! ## Resolution as rendering -/

/-- A piece of a pattern whose placeholders are evaluated. -/
inductive Piece where
  | text (s : Str)
  | elide
  deriving DecidableEq, Repr

/-- Append pieces to what is built; an elision takes back one trailing slash. -/
def render : Str → List Piece → Str
  | out, [] => out
  | out, .text s :: pieces => render (out ++ s) pieces
  | out, .elide :: pieces => render (popSlash out) pieces

/-- The pieces of evaluated placeholders, each behind its literal, and of the text behind them. -/
def tokenPieces (tokens : List (Str × Token)) (tail : Str) : List Piece :=
  match tokens with
  | [] => [.text tail]
  | (before, .value text) :: tokens => .text before :: .text text :: tokenPieces tokens tail
  | (before, .elide) :: tokens => .text before :: .elide :: tokenPieces tokens tail

theorem render_tokenPieces (out : Str) (tokens : List (Str × Token)) (tail : Str) :
    render out (tokenPieces tokens tail) = tokens.foldl fillStep out ++ tail := by
  induction tokens generalizing out with
  | nil => rfl
  | cons token tokens ih =>
    obtain ⟨before, token⟩ := token
    cases token <;> exact ih _

/-- The literal text before the first placeholder. -/
def literalStart (pattern : Str) : Str :=
  match splitOnce openMark pattern with
  | some (before, _) => before
  | none => pattern

/-- The pieces after the literal start. -/
def laterPieces (codec : Codec) (pattern : Str) (url : UrlView) (data : Object) :
    Except RsError (List Piece) := do
  let tokens ← (patternPieces pattern.length pattern).1.mapM fun piece =>
    ((evalToken codec piece.2 url data).mapError (inPattern pattern)).map fun token =>
      (piece.1, token)
  return (tokenPieces tokens (patternPieces pattern.length pattern).2).tail

variable {codec : Codec} {url : UrlView} {data : Object}

/-- The first piece of a pattern that resolves is its literal start. -/
theorem tokenPieces_eq_literalStart {pattern out : Str} {tokens : List (Str × Token)}
    (resolved : resolve codec pattern url data = .ok out)
    (evaluates : List.Forall₂ (Evaluates codec url data)
      (patternPieces pattern.length pattern).1 tokens) :
    ∃ later, tokenPieces tokens (patternPieces pattern.length pattern).2 =
      .text (literalStart pattern) :: later := by
  rw [resolve] at resolved
  cases turns : pattern.length with
  | zero =>
    rw [turns] at evaluates
    rw [List.length_eq_zero_iff.mp turns]
    cases evaluates
    exact ⟨[], rfl⟩
  | succ turns' =>
    rw [turns, resolveLoop] at resolved
    rw [turns, patternPieces] at evaluates
    rw [patternPieces, literalStart]
    cases opened : splitOnce openMark pattern with
    | none =>
      simp only [opened] at evaluates
      cases evaluates
      exact ⟨[], rfl⟩
    | some parts =>
      simp only [opened] at resolved evaluates ⊢
      cases closed : splitOnce closeMark parts.2 with
      | none =>
        simp only [closed] at resolved
        cases resolved
      | some rest =>
        simp only [closed] at evaluates ⊢
        obtain _ | ⟨⟨same, -⟩, -⟩ := evaluates
        rename_i token tokens
        obtain ⟨before, token⟩ := token
        cases same
        cases token <;> exact ⟨_, rfl⟩

theorem mapM_of_evaluates (pattern : Str) {pieces : List (Str × Str)} {tokens : List (Str × Token)}
    (evaluates : List.Forall₂ (Evaluates codec url data) pieces tokens) :
    pieces.mapM (fun piece => ((evalToken codec piece.2 url data).mapError (inPattern pattern)).map
      fun token => (piece.1, token)) = .ok tokens := by
  induction evaluates with
  | nil => rfl
  | cons known _ ih =>
    rw [List.mapM_cons, known.2, ih, ← known.1]
    rfl

/-- A resolved pattern is its literal start followed by its later pieces. -/
theorem resolve_eq_render {pattern out : Str}
    (resolved : resolve codec pattern url data = .ok out) :
    ∃ later, laterPieces codec pattern url data = .ok later ∧
      out = render (literalStart pattern) later := by
  obtain ⟨tokens, evaluates, filled⟩ := resolveLoop_eq_foldl resolved
  obtain ⟨later, shape⟩ := tokenPieces_eq_literalStart resolved evaluates
  refine ⟨later, ?_, ?_⟩
  · rw [laterPieces, mapM_of_evaluates pattern evaluates]
    exact congrArg (fun pieces => Except.ok (List.tail pieces)) shape
  · rw [filled, ← render_tokenPieces, shape]
    rfl

/-! ## What is left of the separators -/

/-- The first character other than a slash that the pieces produce, with the text and the
pieces that follow it, and the number of slashes left standing in front of it when `kept`
stand before the pieces. -/
def firstOrdinary : Nat → List Piece → Option (Nat × Str × List Piece)
  | _, [] => none
  | kept, .elide :: pieces => firstOrdinary (kept - 1) pieces
  | kept, .text s :: pieces =>
    match s.dropWhile (· = '/') with
    | [] => firstOrdinary (kept + s.length) pieces
    | c :: rest => some (kept + (s.takeWhile (· = '/')).length, c :: rest, pieces)

theorem popSlash_of_getLast? {s : Str} (ends : s.getLast? ≠ some '/') : popSlash s = s :=
  if_neg ends

/-- Nothing in front of an ordinary character is ever taken back. -/
theorem render_append_ordinary {c : Char} (ordinary : c ≠ '/') (pieces : List Piece) (s : Str) :
    ∃ rest, ∀ front, render (front ++ c :: s) pieces = front ++ c :: rest := by
  induction pieces generalizing s with
  | nil => exact ⟨s, fun _ => rfl⟩
  | cons piece pieces ih =>
    cases piece with
    | text t =>
      obtain ⟨rest, rendered⟩ := ih (s ++ t)
      refine ⟨rest, fun front => ?_⟩
      rw [render, List.append_assoc, List.cons_append]
      exact rendered front
    | elide =>
      have popped : ∃ kept, ∀ front, popSlash (front ++ c :: s) = front ++ c :: kept := by
        induction s using List.reverseRecOn with
        | nil =>
          refine ⟨[], fun front => ?_⟩
          apply popSlash_of_getLast?
          simpa using ordinary
        | append_singleton initial last =>
          by_cases slash : last = '/'
          · refine ⟨initial, fun front => ?_⟩
            rw [slash, ← List.cons_append, ← List.append_assoc]
            exact popSlash_append_slash _
          · refine ⟨initial ++ [last], fun front => ?_⟩
            apply popSlash_of_getLast?
            rw [← List.cons_append, ← List.append_assoc, List.getLast?_concat]
            simpa using slash
      obtain ⟨kept, popped⟩ := popped
      obtain ⟨rest, rendered⟩ := ih kept
      refine ⟨rest, fun front => ?_⟩
      rw [render, popped]
      exact rendered front

theorem eq_replicate_slash {s : Str} (slashes : ∀ c ∈ s, c = '/') :
    s = List.replicate s.length '/' :=
  List.eq_replicate_of_mem slashes

/-- Rendering after slashes keeps the text before them and the slashes that stand. -/
theorem render_slashes {body : Str} (ends : body.getLast? ≠ some '/') (pieces : List Piece)
    (kept : Nat) :
    match firstOrdinary kept pieces with
    | none => ∃ left, render (body ++ List.replicate kept '/') pieces =
        body ++ List.replicate left '/'
    | some (left, text, later) =>
      (∃ c s, text = c :: s ∧ c ≠ '/') ∧
        render (body ++ List.replicate kept '/') pieces =
          body ++ (List.replicate left '/' ++ render text later) := by
  induction pieces generalizing kept with
  | nil => exact ⟨kept, rfl⟩
  | cons piece pieces ih =>
    cases piece with
    | elide =>
      have popped :
          popSlash (body ++ List.replicate kept '/') =
            body ++ List.replicate (kept - 1) '/' := by
        cases kept with
        | zero => simpa using popSlash_of_getLast? ends
        | succ kept =>
          rw [List.replicate_succ', ← List.append_assoc]
          exact popSlash_append_slash _
      rw [firstOrdinary, render, popped]
      exact ih (kept - 1)
    | text s =>
      have run : s.takeWhile (· = '/') =
          List.replicate (s.takeWhile (· = '/')).length '/' := by
        apply eq_replicate_slash
        intro c member
        simpa using List.mem_takeWhile_imp member
      rw [firstOrdinary, render, List.append_assoc]
      cases rest : s.dropWhile (· = '/') with
      | nil =>
        have whole : s = List.replicate s.length '/' := by
          apply eq_replicate_slash
          intro c member
          simpa using List.dropWhile_eq_nil_iff.mp rest c member
        simp only
        rw [show List.replicate kept '/' ++ s = List.replicate (kept + s.length) '/' by
          conv_lhs => rw [whole]
          rw [List.replicate_append_replicate]]
        exact ih (kept + s.length)
      | cons c t =>
        have ordinary : c ≠ '/' := by
          have fails := List.head?_dropWhile_not (· = '/') s
          rw [rest] at fails
          simpa using fails
        have split : s = List.replicate (s.takeWhile (· = '/')).length '/' ++ c :: t := by
          rw [← run, ← rest, List.takeWhile_append_dropWhile]
        refine ⟨⟨c, t, rfl, ordinary⟩, ?_⟩
        obtain ⟨later, rendered⟩ := render_append_ordinary ordinary pieces t
        have alone : render (c :: t) pieces = c :: later := by
          simpa using rendered []
        rw [alone]
        conv_lhs => rw [split]
        rw [← List.append_assoc (List.replicate kept '/'),
          List.replicate_append_replicate, ← List.append_assoc, rendered,
          List.append_assoc]

/-! ## The target of a resolved call -/

/-- Where a resolved call goes: back through dispatch, or out through a grant. -/
inductive Target where
  | internal (url : MsgUrl)
  | external
  deriving DecidableEq, Repr

/-- The target of a call URL; none where classification panics. -/
def callTarget (url : Str) : Option Target :=
  (Outbound.isExternalUrl url).map fun external =>
    if external then .external else .internal (MsgUrl.parse url)

/-- The call is internal and the segments of its path start with those of `start`. -/
def StaysBelow (start : Str) (target : Target) : Prop :=
  ∃ url, target = .internal url ∧
    segments (MsgUrl.parse start).path <+: segments url.path

/-- A separator of the literal start is still in front of the first ordinary character
that later pieces produce, or nothing depends on it: a query already started in the literal
text or starts with that character, or the literal text holds slashes only and what follows
is not an absolute URL. -/
def SeparatorStands (start : Str) (later : List Piece) : Prop :=
  match firstOrdinary (start.rtakeWhile (· = '/')).length later with
  | none => True
  | some (left, text, rest) =>
    0 < left ∨ '?' ∈ start ∨ text.head? = some '?' ∨
      (∀ c ∈ start, c = '/') ∧ Outbound.isExternalUrl (render text rest) ≠ some true

/-- An external URL starts with a letter. -/
theorem head?_of_isExternalUrl {url : Str} (external : Outbound.isExternalUrl url = some true) :
    ∃ c rest, url = c :: rest ∧ c.toLower = 'h' := by
  have started :
      ∃ start : Str, start.head? = some 'h' ∧ Outbound.lowerStarts url start = some true := by
    unfold Outbound.isExternalUrl at external
    obtain ⟨plain, classified, rest⟩ := Option.bind_eq_some_iff.mp external
    cases plain with
    | true => exact ⟨"http://", by decide, classified⟩
    | false => exact ⟨"https://", by decide, rest⟩
  obtain ⟨start, headed, classified⟩ := started
  unfold Outbound.lowerStarts at classified
  split at classified
  next =>
    obtain ⟨slice, cut, lowered⟩ := Option.map_eq_some_iff.mp classified
    have prefixed := (sliceTo_eq_some.mp cut).1
    rw [decide_eq_true_eq] at lowered
    rw [← lowered] at headed
    cases slice with
    | nil => cases headed
    | cons c cs =>
      obtain ⟨rest, rest_eq⟩ := prefixed
      refine ⟨c, cs ++ rest, rest_eq.symm, ?_⟩
      simpa [toAsciiLowercase] using headed
  next => cases classified

/-- The target of text that cannot start an absolute URL. -/
theorem callTarget_of_head? {url : Str} {target : Target}
    (dispatched : callTarget url = some target)
    (starts : ∀ c, url.head? = some c → c.toLower ≠ 'h') :
    target = .internal (MsgUrl.parse url) := by
  obtain ⟨external, classified, rfl⟩ := Option.map_eq_some_iff.mp dispatched
  cases external with
  | true =>
    obtain ⟨c, rest, rfl, lowered⟩ := head?_of_isExternalUrl classified
    exact absurd lowered (starts c rfl)
  | false => rfl

/-- The literal start as its text and the slashes it ends in. -/
theorem eq_rdropWhile_append_slashes (start : Str) :
    start = start.rdropWhile (· = '/') ++
      List.replicate (start.rtakeWhile (· = '/')).length '/' := by
  have run : start.rtakeWhile (· = '/') =
      List.replicate (start.rtakeWhile (· = '/')).length '/' := by
    apply eq_replicate_slash
    intro c member
    simpa using List.mem_rtakeWhile_imp member
  rw [← run, List.rdropWhile_append_rtakeWhile]

theorem getLast?_rdropWhile_slash (start : Str) :
    (start.rdropWhile (· = '/')).getLast? ≠ some '/' := by
  intro ends
  have nonempty : start.rdropWhile (· = '/') ≠ [] := by
    rintro empty
    rw [empty] at ends
    cases ends
  have last := List.rdropWhile_last_not (· = '/') start nonempty
  rw [List.getLast?_eq_some_getLast nonempty, Option.some.injEq] at ends
  simp [ends] at last

/-! ## Staying below the literal start -/

section Below

variable {body tail : Str} {slashes : Nat} {target : Target}

/-- Only the text before the trailing slashes of a start without query contributes
segments. -/
theorem segments_path_start (question : '?' ∉ body) :
    segments (MsgUrl.parse (body ++ List.replicate slashes '/')).path = segments body := by
  have absent : '?' ∉ body ++ List.replicate slashes '/' := by
    simp [question]
  rw [MsgUrl.parse_of_not_mem absent, segments_append_slashes]

/-- A query inside the literal text fixes the whole path. -/
theorem staysBelow_of_query (rooted : ∀ c, body.head? = some c → c = '/') (question : '?' ∈ body)
    (dispatched : callTarget (body ++ tail) = some target) :
    StaysBelow (body ++ List.replicate slashes '/') target := by
  obtain ⟨before, after, rfl⟩ := List.append_of_mem question
  have starts : ∀ c, (before ++ '?' :: after ++ tail).head? = some c → c.toLower ≠ 'h' := by
    intro c headed
    have first : (before ++ '?' :: after).head? = some c := by
      cases before <;> simpa using headed
    rw [rooted c first]
    decide
  refine ⟨_, callTarget_of_head? dispatched starts, ?_⟩
  have paths :
      (MsgUrl.parse (before ++ '?' :: after ++ List.replicate slashes '/')).path =
        (MsgUrl.parse (before ++ '?' :: after ++ tail)).path := by
    rw [MsgUrl.path_parse, MsgUrl.path_parse, List.append_assoc, List.append_assoc,
      List.cons_append, List.cons_append, takeWhile_append_cons (by decide),
      takeWhile_append_cons (by decide)]
  rw [paths]

/-- Text that a separator or a query opens stays below. -/
theorem staysBelow_of_separated (rooted : ∀ c, body.head? = some c → c = '/')
    (question : '?' ∉ body) (separated : ∀ c, tail.head? = some c → c = '/' ∨ c = '?')
    (dispatched : callTarget (body ++ tail) = some target) :
    StaysBelow (body ++ List.replicate slashes '/') target := by
  have starts : ∀ c, (body ++ tail).head? = some c → c.toLower ≠ 'h' := by
    intro c headed
    have first : c = '/' ∨ c = '?' := by
      cases body with
      | nil => exact separated c headed
      | cons d ds => exact Or.inl (rooted c headed)
    rcases first with rfl | rfl <;> decide
  refine ⟨_, callTarget_of_head? dispatched starts, ?_⟩
  have path : (MsgUrl.parse (body ++ tail)).path = body ++ tail.takeWhile (· ≠ '?') := by
    rw [MsgUrl.path_parse, List.takeWhile_append_of_pos]
    intro c member
    have differs : c ≠ '?' := fun same => question (same ▸ member)
    simpa using differs
  rw [segments_path_start question, path]
  cases tail with
  | nil => simp
  | cons c cs =>
    rcases separated c rfl with rfl | rfl
    · have opened : ('/' :: cs).takeWhile (· ≠ '?') = '/' :: cs.takeWhile (· ≠ '?') := by
        simp
      rw [opened, segments_append_slash]
      exact List.prefix_append _ _
    · simp

/-- Text that continues the last segment leaves the literal start. -/
theorem not_staysBelow_of_continued {c : Char} (nonempty : body ≠ [])
    (ends : body.getLast? ≠ some '/') (question : '?' ∉ body) (ordinary : c ≠ '/')
    (asked : c ≠ '?') (dispatched : callTarget (body ++ c :: tail) = some target) :
    ¬ StaysBelow (body ++ List.replicate slashes '/') target := by
  rintro ⟨url, rfl, below⟩
  have url_eq : url = MsgUrl.parse (body ++ c :: tail) := by
    obtain ⟨external, -, targeted⟩ := Option.map_eq_some_iff.mp dispatched
    cases external with
    | true => cases targeted
    | false => exact (Target.internal.inj targeted).symm
  have path :
      (MsgUrl.parse (body ++ c :: tail)).path = body ++ c :: tail.takeWhile (· ≠ '?') := by
    rw [MsgUrl.path_parse, List.takeWhile_append_of_pos]
    · simp [asked]
    · intro d member
      have differs : d ≠ '?' := fun same => question (same ▸ member)
      simpa using differs
  rw [segments_path_start question, url_eq, path] at below
  have last := List.getLast?_eq_some_getLast nonempty
  have unfinished : body.getLast nonempty ≠ '/' := by
    intro same
    rw [same] at last
    exact ends last
  exact not_segments_prefix_append last unfinished ordinary _ below

/-- Below slashes alone, only an absolute URL leaves. -/
theorem staysBelow_slashes_iff (dispatched : callTarget tail = some target) :
    StaysBelow (List.replicate slashes '/') target ↔
      Outbound.isExternalUrl tail ≠ some true := by
  obtain ⟨external, classified, rfl⟩ := Option.map_eq_some_iff.mp dispatched
  have bare : segments (MsgUrl.parse ([] ++ List.replicate slashes '/')).path = segments [] :=
    segments_path_start (by simp)
  rw [List.nil_append, segments_nil] at bare
  cases external with
  | true => simp [classified, StaysBelow]
  | false =>
    simp only [classified, ne_eq, Option.some.injEq, Bool.false_eq_true, not_false_eq_true,
      iff_true]
    exact ⟨_, rfl, by rw [bare]; exact List.nil_prefix⟩

end Below

/-- The same over a literal start and the pieces after it. -/
theorem rendered_staysBelow_iff {start : Str} {later : List Piece} {target : Target}
    (opens : start.head? = some '/') (dispatched : callTarget (render start later) = some target) :
    StaysBelow start target ↔ SeparatorStands start later := by
  have start_eq := eq_rdropWhile_append_slashes start
  have ends := getLast?_rdropWhile_slash start
  unfold SeparatorStands
  generalize start.rdropWhile (· = '/') = body at start_eq ends
  generalize (start.rtakeWhile (· = '/')).length = slashes at start_eq ⊢
  subst start_eq
  have rooted : ∀ c, body.head? = some c → c = '/' := by
    intro c headed
    rw [List.head?_append, headed, Option.some_or, Option.some.injEq] at opens
    exact opens
  have asked : '?' ∈ body ++ List.replicate slashes '/' ↔ '?' ∈ body := by
    simp
  have shape := render_slashes ends later slashes
  cases first : firstOrdinary slashes later with
  | none =>
    rw [first] at shape
    obtain ⟨left, rendered⟩ := shape
    rw [rendered] at dispatched
    simp only [iff_true]
    by_cases question : '?' ∈ body
    · exact staysBelow_of_query rooted question dispatched
    · apply staysBelow_of_separated rooted question _ dispatched
      intro c headed
      exact Or.inl (List.eq_of_mem_replicate (List.mem_of_head? headed))
  | some found =>
    obtain ⟨left, text, rest⟩ := found
    rw [first] at shape
    obtain ⟨⟨c, s, rfl, ordinary⟩, rendered⟩ := shape
    obtain ⟨t, opened⟩ := render_append_ordinary ordinary rest s
    have produced : render (c :: s) rest = c :: t := opened []
    rw [rendered, produced] at dispatched
    simp only [asked, produced, List.head?_cons, Option.some.injEq]
    by_cases question : '?' ∈ body
    · simp only [question, true_or, or_true, iff_true]
      exact staysBelow_of_query rooted question dispatched
    cases left with
    | succ left =>
      simp only [Nat.zero_lt_succ, true_or, iff_true]
      apply staysBelow_of_separated rooted question _ dispatched
      intro d headed
      exact Or.inl (by simpa [List.replicate_succ] using headed.symm)
    | zero =>
      rw [List.replicate_zero, List.nil_append] at dispatched
      simp only [Nat.lt_irrefl, question, false_or]
      by_cases marked : c = '?'
      · simp only [marked, true_or, iff_true]
        apply staysBelow_of_separated rooted question _ dispatched
        intro d headed
        exact Or.inr (by simpa [marked] using headed.symm)
      simp only [marked, false_or]
      by_cases empty : body = []
      · subst empty
        have only : ∀ d ∈ [] ++ List.replicate slashes '/', d = '/' := by
          intro d member
          exact List.eq_of_mem_replicate member
        rw [List.nil_append] at dispatched
        rw [and_iff_right only]
        exact staysBelow_slashes_iff dispatched
      · have not_only : ¬ ∀ d ∈ body ++ List.replicate slashes '/', d = '/' := by
          intro only
          have last := List.getLast?_eq_some_getLast empty
          rw [only _ (List.mem_append_left _ (List.getLast_mem empty))] at last
          exact ends last
        simp only [not_only, false_and, iff_false]
        exact not_staysBelow_of_continued empty ends question ordinary marked dispatched

/-- A resolved call whose literal start begins with a slash is dispatched internally below
that start exactly when a separator stands between the start and what the placeholders
produce. -/
theorem resolved_call_stays_below_iff {codec : Codec} {pattern out : Str} {url : UrlView}
    {data : Object} {target : Target} (opens : (literalStart pattern).head? = some '/')
    (resolved : resolve codec pattern url data = .ok out)
    (dispatched : callTarget out = some target) :
    StaysBelow (literalStart pattern) target ↔
      ∃ later, laterPieces codec pattern url data = .ok later ∧
        SeparatorStands (literalStart pattern) later := by
  obtain ⟨later, evaluated, rendered⟩ := resolve_eq_render resolved
  rw [rendered] at dispatched
  rw [rendered_staysBelow_iff opens dispatched, evaluated]
  simp

/-- A call below `/files/` whose placeholder has a value. -/
theorem resolved_call_stays_below_files :
    StaysBelow (literalStart "/files/$\x7bname\x7d")
        (.internal (MsgUrl.parse "/files/report")) ↔
      ∃ later,
        laterPieces Tagged.codec "/files/$\x7bname\x7d" .empty [("name", .str "report")] =
          .ok later ∧
        SeparatorStands (literalStart "/files/$\x7bname\x7d") later := by
  have resolved :
      resolve Tagged.codec "/files/$\x7bname\x7d" .empty [("name", .str "report")] =
        .ok "/files/report".toList := by
    decide
  exact resolved_call_stays_below_iff (by decide) resolved (by decide)

/-- An elided placeholder takes back the slash that ends the literal start: the next
placeholder continues its last segment, or spells an absolute URL. -/
theorem elided_separator_reroutes_call :
    resolve Tagged.codec "/files/$\x7bdir?\x7d$\x7bname\x7d" .empty
        [("name", .str "-private/key")] = .ok "/files-private/key".toList ∧
      Router.validatePath (MsgUrl.parse "/files-private/key").path = .ok () ∧
      callTarget "/files-private/key" =
        some (.internal (MsgUrl.parse "/files-private/key")) ∧
      ¬ segments (MsgUrl.parse "/files/").path <+:
        segments (MsgUrl.parse "/files-private/key").path ∧
      resolve Tagged.codec "/$\x7bdir?\x7d$\x7bname\x7d" .empty
        [("name", .str "http://evil.com/")] = .ok "http://evil.com/".toList ∧
      Router.validatePath (MsgUrl.parse "http://evil.com/").path = .ok () ∧
      callTarget "http://evil.com/" = some .external := by
  decide

end Rs2Runtime.PathPattern
