import Rs2Runtime.Json.Value

/-!
Contract: the binary64 reading of JSON numbers.

Owns:
- rounding of a ratio to the nearest binary64 value, ties to even;
- comparison of rounded values;
- the signed and unsigned 64-bit readings of a number.

Does not own: arithmetic on doubles, infinities or NaN, which no JSON number denotes.
-/

namespace Rs2Runtime.Json

/-- A finite binary64 value `significand * 2 ^ exponent`. -/
structure Double where
  significand : Int
  exponent : Int
  deriving DecidableEq, Repr

namespace Double

/-- The quotient rounded to the nearest integer, ties to even. -/
def roundHalfEven (num den : Nat) : Nat :=
  let quotient := num / den
  let remainder := num % den
  if 2 * remainder < den then quotient
  else if den < 2 * remainder then quotient + 1
  else if quotient % 2 = 0 then quotient
  else quotient + 1

/-- The nearest integer to `(num / den) / 2 ^ exponent`. -/
def scaled (num den : Nat) (exponent : Int) : Nat :=
  roundHalfEven (num * 2 ^ (-exponent).toNat) (den * 2 ^ exponent.toNat)

/-- The exponent under which the significand of `num / den` has 53 bits; not below the
exponent of the subnormal values. -/
def exponentFor (num den : Nat) : Int :=
  let estimate : Int := (Nat.log2 num : Int) - Nat.log2 den - 53
  let exact :=
    if 2 ^ 53 * (den * 2 ^ estimate.toNat) ≤ num * 2 ^ (-estimate).toNat then
      estimate + 1
    else
      estimate
  max exact (-1074)

/-- Round a ratio to binary64. -/
def ofRatio (num : Int) (den : Nat) : Double :=
  if num = 0 then
    ⟨0, 0⟩
  else
    let exponent := exponentFor num.natAbs den
    ⟨num.sign * scaled num.natAbs den exponent, exponent⟩

/-- Compare two values after bringing them to a common exponent. -/
def cmp (left right : Double) : Ordering :=
  let common := min left.exponent right.exponent
  compare
    (left.significand * 2 ^ (left.exponent - common).toNat)
    (right.significand * 2 ^ (right.exponent - common).toNat)

end Double

namespace Number

/-- The value as a signed 64-bit integer. -/
def asI64 : Number → Option Int
  | .int value => if -(2 ^ 63) ≤ value ∧ value < 2 ^ 63 then some value else none
  | .float _ _ => none

/-- The value as an unsigned 64-bit integer. -/
def asU64 : Number → Option Nat
  | .int value => if 0 ≤ value ∧ value < 2 ^ 64 then some value.toNat else none
  | .float _ _ => none

/-- The nearest binary64 value. -/
def asF64 : Number → Double
  | .int value => .ofRatio value 1
  | .float digits exponent =>
    .ofRatio (digits * 10 ^ exponent.toNat) (10 ^ (-exponent).toNat)

end Number

end Rs2Runtime.Json
