import Rs2Runtime.Json.Double

/-!
Contract: equality of JSON values as the host compares them.

Owns:
- equality of numbers, which tells integers from floats and compares floats as doubles;
- its extension to arrays and objects.
-/

namespace Rs2Runtime.Json

open Text Data

/-- Integers are equal to integers, and floats to floats of the same double. -/
def Number.same : Number → Number → Bool
  | .int left, .int right => left = right
  | .float digits exponent, .float digits' exponent' =>
    (Number.float digits exponent).asF64.cmp (Number.float digits' exponent').asF64 = .eq
  | .int _, .float _ _ | .float _ _, .int _ => false

namespace Value

mutual

def same : Value → Value → Bool
  | .null, .null => true
  | .bool left, .bool right => left = right
  | .num left, .num right => left.same right
  | .str left, .str right => left = right
  | .arr left, .arr right => sameItems left right
  | .obj left, .obj right => sameFields left right
  | _, _ => false

def sameItems : List Value → List Value → Bool
  | [], [] => true
  | left :: lefts, right :: rights => same left right && sameItems lefts rights
  | _, _ => false

def sameFields : List (Str × Value) → List (Str × Value) → Bool
  | [], [] => true
  | (leftKey, left) :: lefts, (rightKey, right) :: rights =>
    decide (leftKey = rightKey) && same left right && sameFields lefts rights
  | _, _ => false

end

end Value

end Rs2Runtime.Json
