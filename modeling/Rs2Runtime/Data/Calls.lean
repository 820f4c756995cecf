/-!
Contract: programs that make calls and go on with their answers.

Owns:
- programs, as what they call for and how they continue;
- safe programs: every call and the result are as promised, as long as the answers are as assumed
  by what was noted of the answers before.
-/

namespace Rs2Runtime.Data

universe u

/-- A program that is done, or that waits for the answer to a call. -/
inductive Calls (κ α ρ : Type u) where
  | done (result : ρ)
  | call (request : κ) (next : α → Calls κ α ρ)

namespace Calls

variable {κ α ρ γ : Type u}

/-- What is promised and assumed of calls, and what is noted of an answer. -/
structure Terms (κ α ρ γ : Type u) where
  Result : ρ → Prop
  Request : κ → Prop
  Answer : γ → κ → α → Prop
  note : γ → κ → α → γ

/-- The program keeps the terms, from what is noted on. -/
def Safe (terms : Terms κ α ρ γ) : γ → Calls κ α ρ → Prop
  | _, .done result => terms.Result result
  | noted, .call request next =>
    terms.Request request ∧ ∀ answer, terms.Answer noted request answer →
      Safe terms (terms.note noted request answer) (next answer)

end Calls

end Rs2Runtime.Data
