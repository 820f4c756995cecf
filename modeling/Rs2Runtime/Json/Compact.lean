import Rs2Runtime.Json.WellFormed
import Rs2Runtime.Text.Utf8

/-!
Contract: the compact text of JSON values.

Owns:
- quoted texts with their escapes;
- the text of a value with the members of its objects in the order in which they stand, and with
  its members sorted at every level, for any order of keys.

Does not own: the spelling of decimal fractions, which is a parameter, or any order of keys.
-/

namespace Rs2Runtime.Json.Compact

open Text Data

/-! ## Quoted texts -/

/-- A character inside of quotation marks. -/
def escapeChar (c : Char) : Str :=
  if c = '"' then ['\\', '"']
  else if c = '\\' then ['\\', '\\']
  else if c = '\x08' then ['\\', 'b']
  else if c = '\t' then ['\\', 't']
  else if c = '\n' then ['\\', 'n']
  else if c = '\x0c' then ['\\', 'f']
  else if c = '\r' then ['\\', 'r']
  else if c.toNat < 32 then ['\\', 'u', '0', '0', hexDigit (c.toNat / 16), hexDigit (c.toNat % 16)]
  else [c]

def quote (s : Str) : Str :=
  '"' :: (s.flatMap escapeChar ++ ['"'])

/-! ## Values -/

section Print

variable (float : (digits exponent : Int) → Str)

mutual

/-- The text of a value, with the members of objects in their order. -/
def print : Value → Str
  | .null => "null"
  | .bool true => "true"
  | .bool false => "false"
  | .num (.int value) => intStr value
  | .num (.float digits exponent) => float digits exponent
  | .str value => quote value
  | .arr items => '[' :: (join "," (printItems items) ++ [']'])
  | .obj fields => '\x7b' :: (join "," (printFields fields) ++ ['\x7d'])

def printItems : List Value → List Str
  | [] => []
  | item :: items => print item :: printItems items

def printFields : List (Str × Value) → List Str
  | [] => []
  | (key, value) :: fields => (quote key ++ ':' :: print value) :: printFields fields

end

end Print

section Members

variable (float : (digits exponent : Int) → Str)

/-- The text of a member. -/
def printField (field : Str × Value) : Str :=
  quote field.1 ++ ':' :: print float field.2

theorem printItems_eq_map (items : List Value) :
    printItems float items = items.map (print float) := by
  induction items with
  | nil => rfl
  | cons item items ih => rw [printItems, ih, List.map_cons]

theorem printFields_eq_map (fields : List (Str × Value)) :
    printFields float fields = fields.map (printField float) := by
  induction fields with
  | nil => rfl
  | cons field fields ih =>
    rw [printFields, ih, List.map_cons]
    rfl

end Members

/-! ## Control characters -/

section Control

variable {c : Char} (control : c.toNat < 32)

include control

theorem not_mem_escapeChar (d : Char) : c ∉ escapeChar d := by
  have visible : ∀ s : Str, s.all (fun e => 32 ≤ e.toNat) = true → c ∉ s := by
    intro s all member
    have bound := of_decide_eq_true (List.all_eq_true.mp all c member)
    omega
  unfold escapeChar
  split_ifs with h1 h2 h3 h4 h5 h6 h7 low
  · exact visible _ (by decide)
  · exact visible _ (by decide)
  · exact visible _ (by decide)
  · exact visible _ (by decide)
  · exact visible _ (by decide)
  · exact visible _ (by decide)
  · exact visible _ (by decide)
  · have digits : ∀ n < 32, ['\\', 'u', '0', '0', hexDigit (n / 16), hexDigit (n % 16)].all
        (fun e => 32 ≤ e.toNat) = true := by
      decide
    exact visible _ (digits d.toNat low)
  · intro member
    rw [← List.mem_singleton.mp member] at low
    exact low control

theorem not_mem_quote (s : Str) : c ∉ quote s := by
  have noQuote : c ≠ '"' := by
    rintro rfl
    exact absurd control (by decide)
  unfold quote
  rw [List.mem_cons, List.mem_append, List.mem_flatMap, List.mem_singleton, not_or, not_or]
  refine ⟨noQuote, ?_, noQuote⟩
  rintro ⟨d, -, member⟩
  exact not_mem_escapeChar control d member

variable {float : (digits exponent : Int) → Str}
  (printable : ∀ digits exponent, c ∉ float digits exponent)

include printable

/-- The text of a value has no control characters, whatever texts the value has. -/
theorem not_mem_print (value : Value) : c ∉ print float value := by
  have visible : ∀ d : Char, 32 ≤ d.toNat → c ≠ d := by
    rintro d bound rfl
    omega
  have joined {parts : List Str} (apart : ∀ part ∈ parts, c ∉ part) (first last : Char)
      (isFirst : 32 ≤ first.toNat) (isLast : 32 ≤ last.toNat) :
      c ∉ first :: (join "," parts ++ [last]) := by
    intro member
    rcases List.mem_cons.mp member with same | member
    · exact visible first isFirst same
    · rcases List.mem_append.mp member with inside | atEnd
      · rcases mem_join inside with comma | ⟨part, among, inPart⟩
        · exact visible ',' (by decide) (List.mem_singleton.mp comma)
        · exact apart part among inPart
      · exact visible last isLast (List.mem_singleton.mp atEnd)
  have plain : ∀ s : Str, s.all (fun d => 32 ≤ d.toNat) = true → c ∉ s := by
    intro s all member
    exact visible c (of_decide_eq_true (List.all_eq_true.mp all c member)) rfl
  cases value with
  | null => exact plain ("null" : Str) (by decide)
  | bool flag =>
    cases flag with
    | true => exact plain ("true" : Str) (by decide)
    | false => exact plain ("false" : Str) (by decide)
  | num number =>
    cases number with
    | int number =>
      intro member
      rcases isDigit_or_sign_of_mem_intStr member with digit | sign
      · have bounds := bounds_of_isDigit digit
        omega
      · exact visible '-' (by decide) sign
    | float digits exponent => exact printable digits exponent
  | str text => exact not_mem_quote control text
  | arr items =>
    rw [print]
    refine joined (fun part member => ?_) _ _ (by decide) (by decide)
    rw [printItems_eq_map] at member
    obtain ⟨item, isItem, rfl⟩ := List.mem_map.mp member
    exact not_mem_print item
  | obj fields =>
    rw [print]
    refine joined (fun part member => ?_) _ _ (by decide) (by decide)
    rw [printFields_eq_map] at member
    obtain ⟨field, isField, rfl⟩ := List.mem_map.mp member
    have smaller : sizeOf field.2 < 1 + sizeOf fields :=
      Value.sizeOf_lt_of_field isField
    unfold printField
    rw [List.mem_append, List.mem_cons, not_or, not_or]
    exact ⟨not_mem_quote control field.1, visible ':' (by decide), not_mem_print field.2⟩
termination_by sizeOf value

end Control

/-! ## Sorted members -/

section Sorted

variable (before : Str → Str → Prop) [DecidableRel before]

/-- Members in the order of their keys. -/
def sortFields {α : Type} (fields : List (Str × α)) : List (Str × α) :=
  fields.insertionSort fun left right => before left.1 right.1

section Texts

variable (float : (digits exponent : Int) → Str)

mutual

/-- The text of a value with the members of its objects sorted. -/
def canonical : Value → Str
  | .obj fields =>
    '\x7b' :: (join "," ((sortFields before (canonicalFields fields)).map fun field =>
      quote field.1 ++ ':' :: field.2) ++ ['\x7d'])
  | .arr items => '[' :: (join "," (canonicalItems items) ++ [']'])
  | .null => print float .null
  | .bool value => print float (.bool value)
  | .num value => print float (.num value)
  | .str value => print float (.str value)

def canonicalItems : List Value → List Str
  | [] => []
  | item :: items => canonical item :: canonicalItems items

def canonicalFields : List (Str × Value) → List (Str × Str)
  | [] => []
  | (key, value) :: fields => (key, canonical value) :: canonicalFields fields

end

end Texts

end Sorted

end Rs2Runtime.Json.Compact
