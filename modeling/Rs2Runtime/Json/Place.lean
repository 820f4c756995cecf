import Rs2Runtime.Json.WellFormed

/-!
Contract: places in JSON values.

Owns:
- the value at a place, a path of member names and positions;
- members of well-formed values as values at places.
-/

namespace Rs2Runtime.Json

open Text Data

/-- One step into a value. -/
inductive Place where
  | key (name : Str)
  | index (position : Nat)
  deriving DecidableEq

namespace Value

/-- The value one step inside. -/
def inside (value : Value) : Place → Option Value
  | .key name => value.get? name
  | .index position => value.asArray.bind fun items => items[position]?

/-- The value at a place. -/
def at? (value : Value) : List Place → Option Value
  | [] => some value
  | step :: rest => (value.inside step).bind fun next => next.at? rest

/-- The value at a place, null where there is none. -/
def atD (value : Value) (place : List Place) : Value :=
  (value.at? place).getD .null

theorem inside_null (step : Place) : inside .null step = none := by
  cases step <;> rfl

theorem atD_null (place : List Place) : atD .null place = .null := by
  cases place with
  | nil => rfl
  | cons step rest =>
    unfold atD at?
    rw [inside_null]
    rfl

theorem atD_cons (value : Value) (step : Place) (rest : List Place) :
    value.atD (step :: rest) = ((value.inside step).getD .null).atD rest := by
  unfold atD
  rw [at?]
  cases value.inside step with
  | some next => rfl
  | none => exact (atD_null rest).symm

theorem inside_key_of_mem {fields : List (Str × Value)} (ordered : OrderedMap.Ordered fields)
    {key : Str} {value : Value} (member : (key, value) ∈ fields) :
    (Value.obj fields).inside (.key key) = some value :=
  OrderedMap.get?_of_mem ordered.nodup member

end Value

end Rs2Runtime.Json
