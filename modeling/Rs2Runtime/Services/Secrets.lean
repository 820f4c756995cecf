import Rs2Runtime.Message.Error

/-!
Contract: secrets of a configuration that is read back and replaced.

Owns:
- which members are masked when a configuration is read;
- the mark that stands for a secret, and its replacement by what is stored in the same place;
- the refusal of marks for which nothing is stored.
-/

namespace Rs2Runtime.Services

open Text Data Json

/-- The placeholder that secrets read back as. -/
def secretMask : Str := "<secret>"

/-! ## Reading -/

/-- Change a member of an object in its place. -/
def modify (key : Str) (change : Value → Value) : Value → Value
  | .obj fields =>
    .obj (fields.map fun field => (field.1, if field.1 = key then change field.2 else field.2))
  | other => other

/-- A text reads back as the mark. -/
def maskText : Value → Value
  | .str _ => .str secretMask
  | other => other

mutual

/-- Every text in a value reads back as the mark. -/
def maskLeaves : Value → Value
  | .str _ => .str secretMask
  | .obj fields => .obj (maskFields fields)
  | .arr items => .arr (maskItems items)
  | .null => .null
  | .bool value => .bool value
  | .num value => .num value

def maskFields : List (Str × Value) → List (Str × Value)
  | [] => []
  | (key, value) :: fields => (key, maskLeaves value) :: maskFields fields

def maskItems : List Value → List Value
  | [] => []
  | item :: items => maskLeaves item :: maskItems items

end

/-- The text at `auth.jwtSecret`, and every text under `secrets`. -/
def redactSecrets (config : Value) : Value :=
  modify "secrets" maskLeaves (modify "auth" (modify "jwtSecret" maskText) config)

/-! ## Replacing -/

mutual

/-- Replace the marks in a value by the texts stored in the same places. -/
def restoreAt : (incoming current : Value) → Value
  | .str text, current =>
    if text = secretMask then
      match current with
      | .str stored => .str stored
      | _ => .str text
    else
      .str text
  | .obj fields, current => .obj (restoreFields fields current)
  | .arr items, current => .arr (restoreItems items current 0)
  | .null, _ => .null
  | .bool value, _ => .bool value
  | .num value, _ => .num value

def restoreFields : (incoming : List (Str × Value)) → (current : Value) → List (Str × Value)
  | [], _ => []
  | (key, value) :: fields, current =>
    (key, restoreAt value ((current.get? key).getD .null)) :: restoreFields fields current

def restoreItems : (incoming : List Value) → (current : Value) → (index : Nat) → List Value
  | [], _, _ => []
  | item :: items, current, index =>
    restoreAt item ((current.asArray.bind fun stored => stored[index]?).getD .null) ::
      restoreItems items current (index + 1)

end

mutual

/-- Whether a mark is left somewhere in a value. -/
def hasMask : Value → Bool
  | .str text => text = secretMask
  | .obj fields => fieldsHaveMask fields
  | .arr items => itemsHaveMask items
  | .null | .bool _ | .num _ => false

def fieldsHaveMask : List (Str × Value) → Bool
  | [] => false
  | (_, value) :: fields => hasMask value || fieldsHaveMask fields

def itemsHaveMask : List Value → Bool
  | [] => false
  | item :: items => hasMask item || itemsHaveMask items

end

def restoreSecrets (incoming current : Value) : Except RsError Value :=
  let restored := restoreAt incoming current
  if hasMask restored then
    .error (.badRequest (("config contains the secret placeholder '" : Str) ++ secretMask ++
      ("' at a location with no stored value to restore — supply the real value there" : Str)))
  else
    .ok restored

end Rs2Runtime.Services
