import Rs2Runtime.Json.Compact

/-!
Contract: the JSON text of the worker's values, with integers beyond the safe range as bigints.

Owns:
- the writer, which marks bigints as strings and rewrites the marks in the text;
- the reader, which keeps integers that a number cannot hold;
- which values are read back from their text.

Does not own: the texts of fractions and the reading of texts, which are ECMAScript's.
-/

namespace Rs2Runtime.Worker.JsonText

open Text Data Json

/-! ## Values -/

/-- A JSON value of the worker. -/
inductive Js where
  | null
  | bool (value : Bool)
  | num (value : Number)
  | big (value : Int)
  | str (value : Str)
  | arr (items : List Js)
  | obj (fields : List (Str × Js))

/-- A decimal that is no integer. -/
def IsFraction (digits exponent : Int) : Prop :=
  exponent < 0 ∧ ¬ (10 : Int) ^ exponent.natAbs ∣ digits

/-- `Number.isSafeInteger`. -/
def isSafeInteger : Number → Bool
  | .int value => value.natAbs < 2 ^ 53
  | .float digits exponent =>
    if 0 ≤ exponent then (digits * 10 ^ exponent.natAbs).natAbs < 2 ^ 53
    else (10 : Int) ^ exponent.natAbs ∣ digits ∧
      (digits / 10 ^ exponent.natAbs).natAbs < 2 ^ 53

section Written

variable (ofBig : Int → Value)

mutual

/-- The value that a replacer of bigints leaves. -/
def written : Js → Value
  | .null => .null
  | .bool value => .bool value
  | .num value => .num value
  | .big value => ofBig value
  | .str value => .str value
  | .arr items => .arr (writtenItems items)
  | .obj fields => .obj (writtenFields fields)

def writtenItems : List Js → List Value
  | [] => []
  | item :: items => written item :: writtenItems items

def writtenFields : List (Str × Js) → List (Str × Value)
  | [] => []
  | (key, value) :: fields => (key, written value) :: writtenFields fields

end

end Written

section Every

variable (number : Number → Prop) (ofBig : Int → Prop)

mutual

/-- Every number and every bigint inside the value has its property. -/
def Every : Js → Prop
  | .null | .bool _ | .str _ => True
  | .num value => number value
  | .big value => ofBig value
  | .arr items => EveryItem items
  | .obj fields => EveryField fields

def EveryItem : List Js → Prop
  | [] => True
  | item :: items => Every item ∧ EveryItem items

def EveryField : List (Str × Js) → Prop
  | [] => True
  | (_, value) :: fields => Every value ∧ EveryField fields

end

end Every

/-- A number that the worker holds as one: an integer of the safe range, or no integer. -/
def IsNumber : Number → Prop
  | .int value => isSafeInteger (.int value) = true
  | .float digits exponent => IsFraction digits exponent

/-- Integers beyond the safe range are bigints. -/
def Held (value : Js) : Prop :=
  Every IsNumber (fun _ => True) value

/-- There is no bigint inside the value. -/
def NoBig (value : Js) : Prop :=
  Every (fun _ => True) (fun _ => False) value

/-! ## The writer -/

/-- The marker that the writer puts before the digits of a bigint. -/
def marker : Str := '\x00' :: ("big:" : Str)

/-- The string that stands for a bigint until the text is rewritten. -/
def markOf (value : Int) : Value :=
  .str (marker ++ intStr value)

/-- An optional minus sign and the text after it. -/
def signed : Str → Str × Str
  | '-' :: rest => (['-'], rest)
  | rest => ([], rest)

/-- A match of a quoted mark at the front: its number and the text after it. -/
def matchMark (s : Str) : Option (Str × Str) :=
  (stripStart ('"' :: marker) s).bind fun rest =>
    let number := signed rest
    let digits := number.2.takeWhile Char.isDigit
    match number.2.dropWhile Char.isDigit with
    | '"' :: after => if digits = [] then none else some (number.1 ++ digits, after)
    | _ => none

/-- Every quoted mark replaced by its number; every turn consumes a character. -/
def replaceMarks : (turns : Nat) → Str → Str
  | 0, s => s
  | _ + 1, [] => []
  | turns + 1, c :: rest =>
    match matchMark (c :: rest) with
    | some (number, after) => number ++ replaceMarks turns after
    | none => c :: replaceMarks turns rest

section Script

variable (fraction : (digits exponent : Int) → Str)

def stringifyJson (value : Js) : Str :=
  let text := Compact.print fraction (written markOf value)
  replaceMarks text.length text

/-- The text in which every integer appears as plain digits. -/
def plainText (value : Js) : Str :=
  Compact.print fraction (written (fun big => .num (.int big)) value)

/-! ## The reader -/

section Revived

variable (revive : (source : Str) → Number → Js)

mutual

/-- What a reviver of numbers makes of a value whose numbers have their texts as sources. -/
def revived : Value → Js
  | .null => .null
  | .bool value => .bool value
  | .num value => revive (Compact.print fraction (.num value)) value
  | .str value => .str value
  | .arr items => .arr (revivedItems items)
  | .obj fields => .obj (revivedFields fields)

def revivedItems : List Value → List Js
  | [] => []
  | item :: items => revived item :: revivedItems items

def revivedFields : List (Str × Value) → List (Str × Js)
  | [] => []
  | (key, value) :: fields => (key, revived value) :: revivedFields fields

end

end Revived

/-- Whether a text has sixteen digits in a row. -/
def needsBigInts (text : Str) : Bool :=
  text.tails.any fun rest => 16 ≤ (rest.takeWhile Char.isDigit).length

/-- A text of digits only, after an optional minus sign. -/
def isIntegerText (source : Str) : Bool :=
  (signed source).2 ≠ [] && (signed source).2.all Char.isDigit

/-- `BigInt` of the text of an integer. -/
def bigInt (source : Str) : Int :=
  let digits : Int := Nat.ofDigitChars 10 (signed source).2 0
  if (signed source).1 = [] then digits else -digits

/-- Integers that a number cannot hold become bigints of their source. -/
def reviveNumber (source : Str) (value : Number) : Js :=
  if isIntegerText source && !isSafeInteger value then .big (bigInt source) else .num value

/-- `JSON.parse` of a text with a reviver of numbers. -/
abbrev Parser := Str → (revive : (source : Str) → Number → Js) → Option Js

def parseJsonPreservingBigInts (parse : Parser) (text : Str) : Option Js :=
  if needsBigInts text then parse text reviveNumber else parse text fun _ value => .num value

/-! ## Marks in texts -/

variable {fraction}

/-- A text without the marker's first character has no marks. -/
theorem replaceMarks_of_not_mem {s : Str} (absent : '\x00' ∉ s) (turns : Nat) :
    replaceMarks turns s = s := by
  induction turns generalizing s with
  | zero => rfl
  | succ turns ih =>
    cases s with
    | nil => rfl
    | cons c rest =>
      have unmarked : matchMark (c :: rest) = none := by
        unfold matchMark
        cases opened : stripStart ('"' :: marker) (c :: rest) with
        | none => rfl
        | some after =>
          rw [stripStart_eq_some.mp opened] at absent
          exact absurd (List.mem_append_left _ (by decide)) absent
      rw [replaceMarks, unmarked]
      exact congrArg (c :: ·) (ih (List.not_mem_of_not_mem_cons absent))

theorem stringifyJson_eq (printable : ∀ digits exponent, '\x00' ∉ fraction digits exponent)
    (value : Js) :
    stringifyJson fraction value = Compact.print fraction (written markOf value) :=
  replaceMarks_of_not_mem (Compact.not_mem_print (by decide) printable _) _

/-! ## What is read back -/

section Families

set_option linter.unusedSectionVars false

variable {ofBig ofBig' : Int → Value} {revive : (source : Str) → Number → Js}
  {number : Number → Prop}

mutual

/-- Without bigints the replacer does nothing. -/
theorem written_eq : (value : Js) → Every number (fun _ => False) value →
    written ofBig value = written ofBig' value
  | .null, _ | .bool _, _ | .num _, _ | .str _, _ => rfl
  | .big _, absent => absent.elim
  | .arr items, every => by rw [written, written, writtenItems_eq items every]
  | .obj fields, every => by rw [written, written, writtenFields_eq fields every]

theorem writtenItems_eq : (items : List Js) → EveryItem number (fun _ => False) items →
    writtenItems ofBig items = writtenItems ofBig' items
  | [], _ => rfl
  | item :: items, every => by
      rw [writtenItems, writtenItems, written_eq item every.1, writtenItems_eq items every.2]

theorem writtenFields_eq : (fields : List (Str × Js)) → EveryField number (fun _ => False) fields →
    writtenFields ofBig fields = writtenFields ofBig' fields
  | [], _ => rfl
  | (key, value) :: fields, every => by
      rw [writtenFields, writtenFields, written_eq value every.1, writtenFields_eq fields every.2]

end

mutual

theorem every_and : (value : Js) → Every number (fun _ => True) value → NoBig value →
    Every number (fun _ => False) value
  | .null, _, _ | .bool _, _, _ | .str _, _, _ => trivial
  | .num _, isNumber, _ => isNumber
  | .big _, _, absent => absent
  | .arr items, every, noBig => everyItem_and items every noBig
  | .obj fields, every, noBig => everyField_and fields every noBig

theorem everyItem_and : (items : List Js) → EveryItem number (fun _ => True) items →
    EveryItem (fun _ => True) (fun _ => False) items → EveryItem number (fun _ => False) items
  | [], _, _ => trivial
  | item :: items, every, noBig =>
    ⟨every_and item every.1 noBig.1, everyItem_and items every.2 noBig.2⟩

theorem everyField_and : (fields : List (Str × Js)) → EveryField number (fun _ => True) fields →
    EveryField (fun _ => True) (fun _ => False) fields → EveryField number (fun _ => False) fields
  | [], _, _ => trivial
  | (_, value) :: fields, every, noBig =>
    ⟨every_and value every.1 noBig.1, everyField_and fields every.2 noBig.2⟩

end

variable (keeps : ∀ value, number value →
  revive (Compact.print fraction (.num value)) value = .num value)

include keeps

mutual

/-- A reviver that keeps numbers gives a value without bigints back. -/
theorem revived_written : (value : Js) → Every number (fun _ => False) value →
    revived fraction revive (written ofBig value) = value
  | .null, _ | .bool _, _ | .str _, _ => rfl
  | .num value, isNumber => keeps value isNumber
  | .big _, absent => absent.elim
  | .arr items, every => congrArg Js.arr (revivedItems_written items every)
  | .obj fields, every => congrArg Js.obj (revivedFields_written fields every)

theorem revivedItems_written : (items : List Js) → EveryItem number (fun _ => False) items →
    revivedItems fraction revive (writtenItems ofBig items) = items
  | [], _ => rfl
  | item :: items, every => by
      rw [writtenItems, revivedItems, revived_written item every.1,
        revivedItems_written items every.2]

theorem revivedFields_written :
    (fields : List (Str × Js)) → EveryField number (fun _ => False) fields →
      revivedFields fraction revive (writtenFields ofBig fields) = fields
  | [], _ => rfl
  | (key, value) :: fields, every => by
      rw [writtenFields, revivedFields, revived_written value every.1,
        revivedFields_written fields every.2]

end

variable (marks : ∀ value, NoBig (revived fraction revive (ofBig value)))

include marks

mutual

/-- What is read of marked bigints has no bigint. -/
theorem noBig_revived : (value : Js) → Every number (fun _ => True) value →
    NoBig (revived fraction revive (written ofBig value))
  | .null, _ | .bool _, _ | .str _, _ => trivial
  | .num value, isNumber => by
      rw [written, revived, keeps value isNumber]
      trivial
  | .big value, _ => marks value
  | .arr items, every => noBig_revivedItems items every
  | .obj fields, every => noBig_revivedFields fields every

theorem noBig_revivedItems : (items : List Js) → EveryItem number (fun _ => True) items →
    EveryItem (fun _ => True) (fun _ => False)
      (revivedItems fraction revive (writtenItems ofBig items))
  | [], _ => trivial
  | item :: items, every => ⟨noBig_revived item every.1, noBig_revivedItems items every.2⟩

theorem noBig_revivedFields : (fields : List (Str × Js)) → EveryField number (fun _ => True) fields →
    EveryField (fun _ => True) (fun _ => False)
      (revivedFields fraction revive (writtenFields ofBig fields))
  | [], _ => trivial
  | (_, value) :: fields, every => ⟨noBig_revived value every.1, noBig_revivedFields fields every.2⟩

end

end Families

/-- The reader's revivers keep the numbers that the worker holds as numbers. -/
theorem reviveNumber_of_isNumber
    (notInteger : ∀ digits exponent, IsFraction digits exponent →
      isIntegerText (fraction digits exponent) = false)
    {value : Number} (isNumber : IsNumber value) :
    reviveNumber (Compact.print fraction (.num value)) value = .num value := by
  unfold reviveNumber
  cases value with
  | int number =>
    have safe : isSafeInteger (.int number) = true := isNumber
    rw [safe, Bool.not_true, Bool.and_false, if_neg Bool.false_ne_true]
  | float digits exponent =>
    rw [show Compact.print fraction (.num (.float digits exponent)) = fraction digits exponent
      from rfl, notInteger digits exponent isNumber, Bool.false_and, if_neg Bool.false_ne_true]

/-- A value is read back from a text that reads as its marked form exactly if it has no bigint. -/
theorem revived_marked_iff {revive : (source : Str) → Number → Js} {value : Js}
    (keeps : ∀ value, IsNumber value →
      revive (Compact.print fraction (.num value)) value = .num value) (held : Held value) :
    revived fraction revive (written markOf value) = value ↔ NoBig value := by
  constructor
  · intro same
    have marks (big : Int) : NoBig (revived fraction revive (markOf big)) := trivial
    have noBig := noBig_revived keeps marks value held
    rw [same] at noBig
    exact noBig
  · intro noBig
    exact revived_written keeps value (every_and value held noBig)

/-- For every value that holds integers beyond the safe range as bigints, whose text is read as
ECMAScript says: the text has all integers as plain digits and is read back as the value, exactly
if there is no bigint inside. -/
theorem json_text_is_lossless_iff {parse : Parser} {value : Js}
    (printable : ∀ digits exponent, '\x00' ∉ fraction digits exponent)
    (notInteger : ∀ digits exponent, IsFraction digits exponent →
      isIntegerText (fraction digits exponent) = false)
    (reads : ∀ revive, parse (Compact.print fraction (written markOf value)) revive =
      some (revived fraction revive (written markOf value)))
    (held : Held value) :
    (stringifyJson fraction value = plainText fraction value ∧
      parseJsonPreservingBigInts parse (stringifyJson fraction value) = some value) ↔
        NoBig value := by
  have readBack : parseJsonPreservingBigInts parse (stringifyJson fraction value) = some value ↔
      NoBig value := by
    unfold parseJsonPreservingBigInts
    rw [stringifyJson_eq printable]
    split
    · rw [reads, Option.some.injEq]
      exact revived_marked_iff (fun _ isNumber => reviveNumber_of_isNumber notInteger isNumber) held
    · rw [reads, Option.some.injEq]
      exact revived_marked_iff (fun _ _ => rfl) held
  rw [readBack, and_iff_right_iff_imp]
  intro noBig
  rw [stringifyJson_eq printable, plainText, written_eq value noBig]

end Script

/-! A text that looks like a mark, and a parser that knows the one text. -/

def markedText : Js :=
  .arr [.str (marker ++ ("1" : Str)), .num (.int 9007199254740991)]

def halves (_ _ : Int) : Str := "0.5"

theorem halves_printable (digits exponent : Int) : '\x00' ∉ halves digits exponent := by
  unfold halves
  decide

theorem halves_not_integer (digits exponent : Int) (_ : IsFraction digits exponent) :
    isIntegerText (halves digits exponent) = false := by
  unfold halves
  decide

def readsOnly (value : Js) : Parser := fun text revive =>
  if text = Compact.print halves (written markOf value) then
    some (revived halves revive (written markOf value))
  else none

theorem marked_text_is_read_back :
    stringifyJson halves markedText = plainText halves markedText ∧
      parseJsonPreservingBigInts (readsOnly markedText) (stringifyJson halves markedText) =
        some markedText := by
  have held : Held markedText := ⟨trivial, rfl, trivial⟩
  have noBig : NoBig markedText := ⟨trivial, trivial, trivial⟩
  exact (json_text_is_lossless_iff halves_printable halves_not_integer
    (fun _ => if_pos rfl) held).mpr noBig

/-- The mark of a bigint stays in the text as a string. -/
theorem bigint_is_stored_as_string :
    stringifyJson halves (.big 9007199254740993) =
        ("\"\\u0000big:9007199254740993\"" : Str) ∧
      plainText halves (.big 9007199254740993) = ("9007199254740993" : Str) ∧
      parseJsonPreservingBigInts (readsOnly (.big 9007199254740993))
          (stringifyJson halves (.big 9007199254740993)) ≠ some (.big 9007199254740993) := by
  refine ⟨by decide +kernel, by decide +kernel, fun read => ?_⟩
  rw [stringifyJson_eq halves_printable] at read
  unfold parseJsonPreservingBigInts readsOnly at read
  rw [if_pos rfl, if_pos rfl] at read
  split at read <;> cases read

end Rs2Runtime.Worker.JsonText
