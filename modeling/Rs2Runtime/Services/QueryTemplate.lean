import Rs2Runtime.Data.Outcome
import Rs2Runtime.Message.Error

/-!
Contract: the substitution of parameters into the templates of stored queries.

Owns:
- placeholders: exact ones, those embedded in a longer text, and positional ones;
- structural substitution, with conditions, computed keys and elided members.

Does not own: where parameters come from, their schema, or how an adapter quotes a value.
-/

namespace Rs2Runtime.Services.QueryTemplate

open Text Data Json
open Data.Outcome (require)

/-! ## Placeholders -/

/-- One placeholder; a missing parameter elides an optional one. -/
structure Placeholder where
  name : Str
  optional : Bool
  deriving DecidableEq, Repr

/-- A name with the mark of an optional placeholder read off. -/
def placeholderOf (raw : Str) : Placeholder :=
  match stripEnd ['?'] raw with
  | some name => ⟨name, true⟩
  | none => ⟨raw, false⟩

/-- The text between the braces of a text that is one placeholder. -/
def bracedText (s : Str) : Option Str :=
  (stripStart ['$', '\x7b'] s).bind (stripEnd ['\x7d'])

/-- A text that is exactly one placeholder. -/
def parseExact (s : Str) : Option Placeholder :=
  match bracedText s with
  | none => none
  | some inner =>
    if inner = [] ∨ '\x7b' ∈ inner ∨ '\x7d' ∈ inner ∨ '$' ∈ inner then
      none
    else
      some (placeholderOf inner)

def unterminated (s : Str) : RsError :=
  .badRequest (("unterminated placeholder in '" : Str) ++ s ++ ("'" : Str))

/-! ## Embedded placeholders -/

/-- What the loop over a text comes across: literal text, an embedded or a positional
placeholder, or one that does not close. -/
inductive Token where
  | literal (text : Str)
  | embedded (placeholder : Placeholder)
  | positional (digits : Str)
  | unclosed
  deriving DecidableEq, Repr

def isAsciiDigit (c : Char) : Bool :=
  '0' ≤ c && c ≤ '9'

/-- The loop over a text, from one dollar sign to the next; every turn consumes one. -/
def tokensUpTo : (turns : Nat) → (rest : Str) → List Token
  | 0, rest => [.literal rest]
  | turns + 1, rest =>
    match splitOnce ['$'] rest with
    | none => [.literal rest]
    | some (before, after) =>
      .literal before ::
        match stripStart ['\x7b'] after with
        | some body =>
          match splitOnce ['\x7d'] body with
          | none => [.unclosed]
          | some (raw, rest) => .embedded (placeholderOf raw) :: tokensUpTo turns rest
        | none =>
          let digits := after.takeWhile isAsciiDigit
          if digits = [] then
            .literal ['$'] :: tokensUpTo turns after
          else
            .positional digits :: tokensUpTo turns (after.dropWhile isAsciiDigit)

def tokens (s : Str) : List Token :=
  tokensUpTo s.length s

section Substitution

variable (codec : Codec) (quote : Value → Except RsError Str) (params : Object)

def missing (name : Str) : RsError :=
  .badRequest (("missing query parameter '" : Str) ++ name ++ ("'" : Str))

/-- What stands in the place of a token. -/
def spliceToken (s : Str) : Token → Except RsError Str
  | .literal text => .ok text
  | .embedded placeholder =>
    match params.get? placeholder.name with
    | some value => quote value
    | none => if placeholder.optional then .ok [] else .error (missing placeholder.name)
  | .positional digits =>
    match params.get? digits with
    | some value => quote value
    | none =>
      .error (.badRequest (("missing positional query parameter '$" : Str) ++ digits ++
        ("'" : Str)))
  | .unclosed => .error (unterminated s)

def spliceTokens (s : Str) : List Token → Except RsError Str
  | [] => .ok []
  | token :: rest => do
      let first ← spliceToken quote params s token
      let more ← spliceTokens s rest
      return first ++ more

/-- Put quoted values in the places of embedded placeholders. -/
def splice (s : Str) : Except RsError Str :=
  spliceTokens quote params s (tokens s)

/-! ## Structural substitution -/

/-- The outcome of one node: its value, or that the member it belongs to is dropped. -/
inductive Subst where
  | value (value : Value)
  | elide
  deriving DecidableEq, Repr

def substText (s : Str) : Except RsError Subst :=
  match parseExact s with
  | some placeholder =>
    match params.get? placeholder.name with
    | some value => .ok (.value value)
    | none => if placeholder.optional then .ok .elide else .error (missing placeholder.name)
  | none =>
    if '$' ∈ s then
      (splice quote params s).map fun text => .value (.str text)
    else
      .ok (.value (.str s))

/-- Whether the value of a condition keeps its object. -/
def isTruthy : Value → Bool
  | .null => false
  | .bool value => value
  | .str text => text ≠ []
  | .arr items => !items.isEmpty
  | .num _ | .obj _ => true

def conditionKey : Str := "$if"

/-- The placeholder of a condition. -/
def conditionOf (cond : Value) : Except RsError Placeholder :=
  match cond.asStr.bind parseExact with
  | some placeholder => .ok placeholder
  | none =>
    .error (.badRequest (("$if must be a '$\x7bname\x7d' or '$\x7bname?\x7d' placeholder, got "
      : Str) ++ codec.print cond))

/-- Whether an object is kept by its condition. -/
def keeps (fields : Object) : Except RsError Bool :=
  match fields.get? conditionKey with
  | none => .ok true
  | some cond => do
      let placeholder ← conditionOf codec cond
      match params.get? placeholder.name with
      | some value => return isTruthy value
      | none =>
        if placeholder.optional then
          return false
        else
          .error (.badRequest (("missing query parameter '" : Str) ++ placeholder.name ++
            ("' (required $if condition)" : Str)))

/-- The key of a member; none if its optional parameter is missing. -/
def keyOf (key : Str) : Except RsError (Option Str) :=
  match parseExact key with
  | none => .ok (some key)
  | some placeholder =>
    match params.get? placeholder.name with
    | some (.str text) => .ok (some text)
    | some other =>
      .error (.badRequest (("query parameter '" : Str) ++ placeholder.name ++
        ("' is used as an object key and must be a string, got " : Str) ++
          codec.print other))
    | none => if placeholder.optional then .ok none else .error (missing placeholder.name)

mutual

def substNode : Value → Except RsError Subst
  | .str s => substText quote params s
  | .obj fields => do
      if ← keeps codec params fields then
        let out ← substFields fields []
        return .value (.obj out)
      else
        return .elide
  | .arr items => do
      let out ← substItems items
      return .value (.arr out)
  | .null => .ok (.value .null)
  | .bool value => .ok (.value (.bool value))
  | .num value => .ok (.value (.num value))

/-- The members in their order; what they come to is inserted into `out`. -/
def substFields : List (Str × Value) → (out : Object) → Except RsError Object
  | [], out => .ok out
  | (key, node) :: rest, out =>
    if key = conditionKey then
      substFields rest out
    else do
      match ← keyOf codec params key with
      | none => substFields rest out
      | some key =>
        match ← substNode node with
        | .value value => substFields rest (out.insert key value)
        | .elide => substFields rest out

def substItems : List Value → Except RsError (List Value)
  | [] => .ok []
  | node :: rest => do
      let first ← substNode node
      let more ← substItems rest
      match first with
      | .value value => return value :: more
      | .elide => return more

end

/-- Substitute parameters into a template. -/
def substituteJson (template : Value) : Except RsError Value := do
  match ← substNode codec quote params template with
  | .value value => return value
  | .elide =>
    .error (.badRequest "the whole query is an optional placeholder with no parameter")

end Substitution

end Rs2Runtime.Services.QueryTemplate
