import Rs2Runtime.Text.Basic
import Rs2Runtime.Data.OrderedMap

/-!
Contract: JSON values as request bodies, configuration and variables hold them.

Owns:
- the value type, with objects as ordered maps and exact decimal numbers;
- decidable equality and accessors;
- the well-formedness invariant: every object inside a value has ordered keys.

Does not own: JSON text, rounding of decimals to machine floats, or schemas.

Objects in key order are those of a build without the `preserve_order` feature of `serde_json`,
which a build with the optional engines turns on.  Where a result is about the order of an
object's members, it is about both builds (`MemberOrder`).
-/

namespace Rs2Runtime.Json

open Text Data

/-- A JSON number: an integer, or a decimal fraction `digits * 10 ^ exponent`. -/
inductive Number where
  | int (value : Int)
  | float (digits exponent : Int)
  deriving DecidableEq, Repr

/-- A JSON value.  Objects are association lists in key order. -/
inductive Value where
  | null
  | bool (value : Bool)
  | num (value : Number)
  | str (value : Str)
  | arr (items : List Value)
  | obj (fields : List (Str × Value))
  deriving Repr

/-- A JSON object. -/
abbrev Object := OrderedMap Str Value

theorem Object.ordered_nil : OrderedMap.Ordered ([] : Object) :=
  OrderedMap.ordered_nil

namespace Value

/-! ## Decidable equality -/

mutual

/-- Decide equality of two values. -/
def decEq : (left right : Value) → Decidable (left = right)
  | .null, right =>
    match right with
    | .null => isTrue rfl
    | .bool _ | .num _ | .str _ | .arr _ | .obj _ => isFalse nofun
  | .bool left, right =>
    match right with
    | .bool right => decidable_of_iff (left = right) (by simp)
    | .null | .num _ | .str _ | .arr _ | .obj _ => isFalse nofun
  | .num left, right =>
    match right with
    | .num right => decidable_of_iff (left = right) (by simp)
    | .null | .bool _ | .str _ | .arr _ | .obj _ => isFalse nofun
  | .str left, right =>
    match right with
    | .str right => decidable_of_iff (left = right) (by simp)
    | .null | .bool _ | .num _ | .arr _ | .obj _ => isFalse nofun
  | .arr left, right =>
    match right with
    | .arr right =>
      match decEqItems left right with
      | isTrue same => isTrue (congrArg Value.arr same)
      | isFalse differs => isFalse fun same => differs (Value.arr.inj same)
    | .null | .bool _ | .num _ | .str _ | .obj _ => isFalse nofun
  | .obj left, right =>
    match right with
    | .obj right =>
      match decEqFields left right with
      | isTrue same => isTrue (congrArg Value.obj same)
      | isFalse differs => isFalse fun same => differs (Value.obj.inj same)
    | .null | .bool _ | .num _ | .str _ | .arr _ => isFalse nofun

/-- Decide equality of two item lists. -/
def decEqItems : (left right : List Value) → Decidable (left = right)
  | [], [] => isTrue rfl
  | [], _ :: _ => isFalse nofun
  | _ :: _, [] => isFalse nofun
  | left :: lefts, right :: rights =>
    match decEq left right, decEqItems lefts rights with
    | isTrue head, isTrue tail => isTrue (by rw [head, tail])
    | isFalse differs, _ => isFalse fun same => differs (List.cons.inj same).1
    | _, isFalse differs => isFalse fun same => differs (List.cons.inj same).2

/-- Decide equality of two field lists. -/
def decEqFields : (left right : List (Str × Value)) → Decidable (left = right)
  | [], [] => isTrue rfl
  | [], _ :: _ => isFalse nofun
  | _ :: _, [] => isFalse nofun
  | (leftKey, left) :: lefts, (rightKey, right) :: rights =>
    match decEq left right, decEqFields lefts rights with
    | isTrue head, isTrue tail =>
      if keys : leftKey = rightKey then
        isTrue (by rw [head, tail, keys])
      else
        isFalse fun same => keys (congrArg Prod.fst (List.cons.inj same).1)
    | isFalse differs, _ =>
      isFalse fun same => differs (congrArg Prod.snd (List.cons.inj same).1)
    | _, isFalse differs => isFalse fun same => differs (List.cons.inj same).2

end

instance : DecidableEq Value := decEq

/-! ## Accessors -/

/-- The fields of an object value. -/
def asObject : Value → Option Object
  | .obj fields => some fields
  | _ => none

/-- The items of an array value. -/
def asArray : Value → Option (List Value)
  | .arr items => some items
  | _ => none

/-- The text of a string value. -/
def asStr : Value → Option Str
  | .str value => some value
  | _ => none

/-- The truth value of a Boolean. -/
def asBool : Value → Option Bool
  | .bool value => some value
  | _ => none

/-- A member of an object; none for every other value. -/
def get? (value : Value) (key : Str) : Option Value :=
  value.asObject.bind fun fields => fields.get? key

/-- An object with the given members, inserted in order. -/
def object (members : List (Str × Value)) : Value :=
  .obj (OrderedMap.ofList members)

/-- How a build orders the members of an object: by key, or as they were first inserted. -/
inductive MemberOrder where
  | byKey
  | asInserted
  deriving DecidableEq, Repr

/-- The members of an object that is built by inserting one after another. -/
def MemberOrder.members : MemberOrder → List (Str × Value) → Object
  | .byKey, entries => OrderedMap.ofList entries
  | .asInserted, entries =>
    entries.foldl (fun built entry => OrderedMap.insertInPlace built entry.1 entry.2) []

/-- Whether a value is an object. -/
def isObject (value : Value) : Bool :=
  value.asObject.isSome

@[simp]
theorem get?_obj (fields : Object) (key : Str) :
    get? (.obj fields) key = OrderedMap.get? fields key := rfl

/-! ## Well-formed values -/

mutual

/-- Every object inside the value has strictly ordered keys. -/
def WellFormed : Value → Prop
  | .null | .bool _ | .num _ | .str _ => True
  | .arr items => WellFormedItems items
  | .obj fields => OrderedMap.Ordered fields ∧ WellFormedFields fields

/-- Well-formedness of every item. -/
def WellFormedItems : List Value → Prop
  | [] => True
  | item :: items => WellFormed item ∧ WellFormedItems items

/-- Well-formedness of every field value. -/
def WellFormedFields : List (Str × Value) → Prop
  | [] => True
  | (_, value) :: fields => WellFormed value ∧ WellFormedFields fields

end

end Value

end Rs2Runtime.Json
