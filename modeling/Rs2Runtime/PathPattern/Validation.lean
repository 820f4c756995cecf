import Rs2Runtime.PathPattern.Basic

/-!
Contract: what the validation of a pattern tells about its resolution.

Owns:
- why the evaluation of a placeholder fails;
- that an accepted pattern fails only on a mandatory placeholder without a value, and that a
  rejected one always fails.
-/

namespace Rs2Runtime.PathPattern

open Text Data Json

section Placeholders

variable (codec : Codec) (url : UrlView) (data : Object)

/-- The message for a mandatory placeholder without a value. -/
def resolvedToNothing (interior : Str) : Str :=
  ("'" : Str) ++ interior ++
    ("' resolved to nothing (mark it optional with `?` or give a `|| default`)" : Str)

/-- A placeholder that is well formed, neither optional nor given a default, and has no value. -/
def Unresolved (interior : Str) : Prop :=
  ∃ parsed, parseToken interior = .ok parsed ∧ parsed.optional = false ∧
    parsed.fallback = none ∧ ∀ text, evalExpr codec parsed.primary url data = some text → text = []

variable {codec url data}

theorem evalToken_of_malformed {interior message : Str}
    (malformed : parseToken interior = .error message) :
    evalToken codec interior url data = .error message := by
  rw [evalToken, malformed]
  rfl

/-- A well-formed placeholder has a value, or is mandatory and has none. -/
theorem evalToken_of_parsed {interior : Str} {parsed : ParsedToken}
    (read : parseToken interior = .ok parsed) :
    (∃ token, evalToken codec interior url data = .ok token) ∨
      Unresolved codec url data interior ∧
        evalToken codec interior url data = .error (resolvedToNothing interior) := by
  rw [evalToken, read]
  dsimp only [Except.bind]
  cases valued : (evalExpr codec parsed.primary url data).filter (· ≠ []) with
  | some text => exact .inl ⟨_, rfl⟩
  | none =>
    cases given : parsed.fallback with
    | some fallback => exact .inl ⟨_, rfl⟩
    | none =>
      cases marked : parsed.optional with
      | true => exact .inl ⟨_, rfl⟩
      | false =>
        refine .inr ⟨⟨parsed, read, marked, given, fun text isValue => ?_⟩, rfl⟩
        rw [isValue] at valued
        simpa using valued

end Placeholders

section Patterns

variable {codec : Codec} {pattern : Str} {url : UrlView} {data : Object}

variable (codec pattern url data) in
/-- A resolution that ends with a text, or at a placeholder of `source` without a value. -/
def Settles (source : Str) (result : Except RsError Str) : Prop :=
  (∃ text, result = .ok text) ∨
    ∃ interior, openMark ++ interior ++ closeMark <:+: source ∧
      Unresolved codec url data interior ∧
      result = .error (inPattern pattern (resolvedToNothing interior))

theorem Settles.widen {part source : Str} {result : Except RsError Str}
    (settles : Settles codec pattern url data part result) (inside : part <:+: source) :
    Settles codec pattern url data source result := by
  rcases settles with resolved | ⟨interior, within, failure⟩
  · exact .inl resolved
  · exact .inr ⟨interior, within.trans inside, failure⟩

theorem resolveLoop_of_validated {turns : Nat} {out rest : Str}
    (valid : validateLoop pattern turns rest = .ok ()) :
    Settles codec pattern url data rest (resolveLoop codec pattern url data turns out rest) := by
  induction turns generalizing out rest with
  | zero => exact .inl ⟨_, rfl⟩
  | succ turns ih =>
    unfold validateLoop at valid
    unfold resolveLoop
    cases opened : splitOnce openMark rest with
    | none => exact .inl ⟨_, rfl⟩
    | some parts =>
      obtain ⟨before, after⟩ := parts
      simp only [opened] at valid ⊢
      cases closed : splitOnce closeMark after with
      | none =>
        rw [closed] at valid
        cases valid
      | some parts =>
        obtain ⟨interior, remaining⟩ := parts
        simp only [closed] at valid ⊢
        cases read : parseToken interior with
        | error message =>
          rw [read] at valid
          cases valid
        | ok parsed =>
          simp only [read] at valid
          have whole : rest = before ++ (openMark ++ interior ++ closeMark) ++ remaining := by
            rw [splitOnce_append opened, splitOnce_append closed]
            simp only [List.append_assoc]
          -- What follows the placeholder was validated too, and lies inside the pattern.
          have inside : remaining <:+: rest := by
            rw [whole]
            exact (List.suffix_append _ _).isInfix
          rcases @evalToken_of_parsed codec url data interior parsed read with
            ⟨token, value⟩ | ⟨unresolved, failed⟩
          · rw [value]
            cases token with
            | value text => exact (ih valid).widen inside
            | elide => exact (ih valid).widen inside
          · rw [failed]
            exact .inr ⟨interior, ⟨before, remaining, whole.symm⟩, unresolved, rfl⟩

theorem resolveLoop_of_rejected {turns : Nat} {out rest : Str} {e : RsError}
    (rejected : validateLoop pattern turns rest = .error e) :
    ∃ failure, resolveLoop codec pattern url data turns out rest = .error failure := by
  induction turns generalizing out rest with
  | zero => cases rejected
  | succ turns ih =>
    unfold validateLoop at rejected
    unfold resolveLoop
    cases opened : splitOnce openMark rest with
    | none =>
      rw [opened] at rejected
      cases rejected
    | some parts =>
      simp only [opened] at rejected ⊢
      cases closed : splitOnce closeMark parts.2 with
      | none => exact ⟨_, rfl⟩
      | some parts =>
        simp only [closed] at rejected ⊢
        cases read : parseToken parts.1 with
        | error message =>
          rw [evalToken_of_malformed read]
          exact ⟨_, rfl⟩
        | ok parsed =>
          simp only [read] at rejected
          cases evalToken codec parts.1 url data with
          | error message => exact ⟨_, rfl⟩
          | ok token =>
            cases token with
            | value text => exact ih rejected
            | elide => exact ih rejected

end Patterns

/-- Validation decides whether a pattern is well formed: whatever the URL and the data are, an
accepted pattern resolves or has a mandatory placeholder without a value, and a rejected pattern
does not resolve. -/
theorem validate_decides_resolution (codec : Codec) (pattern : Str) :
    (validate pattern = .ok () → ∀ url data,
      Settles codec pattern url data pattern (resolve codec pattern url data)) ∧
      ((∃ e, validate pattern = .error e) → ∀ url data,
        ∃ failure, resolve codec pattern url data = .error failure) := by
  constructor
  · intro accepted url data
    exact resolveLoop_of_validated accepted
  · rintro ⟨e, rejected⟩ url data
    exact resolveLoop_of_rejected rejected

end Rs2Runtime.PathPattern
