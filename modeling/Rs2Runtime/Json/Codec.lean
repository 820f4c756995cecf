import Rs2Runtime.Json.Value
import Rs2Runtime.Text.Utf8

/-!
Contract: what a serializer and a parser of JSON values owe each other.

Owns:
- the codec laws: printed well-formed values parse back, and parsing only yields
  well-formed values;
- a self-delimiting text form that satisfies the laws, so that they are inhabited by an
  executable instance.

Does not own: the spelling of numbers and escapes in any particular serializer.
-/

namespace Rs2Runtime.Json

open Text Data

/-- A JSON serializer together with a parser of octets. -/
structure Codec where
  print : Value → Str
  parse : Octets → Option Value
  /-- The parser's message for octets it refuses. -/
  parseError : Octets → Str
  parse_print : ∀ value, value.WellFormed → parse (utf8 (print value)) = some value
  wellFormed_of_parse : ∀ octets value, parse octets = some value → value.WellFormed

namespace Codec

/-- The printed octets of a value. -/
def encode (codec : Codec) (value : Value) : Octets :=
  utf8 (codec.print value)

@[simp]
theorem parse_encode (codec : Codec) {value : Value} (wellFormed : value.WellFormed) :
    codec.parse (codec.encode value) = some value :=
  codec.parse_print value wellFormed

end Codec

/-! ## A self-delimiting text form -/

namespace Tagged

/-- A natural number in decimal, closed by a semicolon. -/
def writeNat (n : Nat) : Str :=
  Nat.toDigits 10 n ++ [';']

/-- Read back a closed decimal. -/
def readNat (s : Str) : Option (Nat × Str) :=
  (splitOnce [';'] s).map fun parts => (Nat.ofDigitChars 10 parts.1 0, parts.2)

/-- An integer as its sign and a closed decimal. -/
def writeInt : Int → Str
  | .ofNat n => '+' :: writeNat n
  | .negSucc n => '-' :: writeNat n

/-- Read back an integer. -/
def readInt : Str → Option (Int × Str)
  | '+' :: s => (readNat s).map fun read => (.ofNat read.1, read.2)
  | '-' :: s => (readNat s).map fun read => (.negSucc read.1, read.2)
  | _ => none

/-- A text preceded by its length. -/
def writeStr (s : Str) : Str :=
  writeNat s.length ++ s

/-- Read back a text by its length. -/
def readStr (s : Str) : Option (Str × Str) :=
  (readNat s).map fun read => (read.2.take read.1, read.2.drop read.1)

mutual

/-- The text form of a value: a tag and its contents. -/
def print : Value → Str
  | .null => ['n']
  | .bool true => ['t']
  | .bool false => ['f']
  | .num (.int value) => 'i' :: writeInt value
  | .num (.float digits exponent) => 'd' :: (writeInt digits ++ writeInt exponent)
  | .str value => 's' :: writeStr value
  | .arr items => 'a' :: (writeNat items.length ++ printItems items)
  | .obj fields => 'o' :: (writeNat fields.length ++ printFields fields)

/-- The text forms of the items, one after another. -/
def printItems : List Value → Str
  | [] => []
  | item :: items => print item ++ printItems items

/-- The keys and text forms of the fields, one after another. -/
def printFields : List (Str × Value) → Str
  | [] => []
  | (key, value) :: fields => writeStr key ++ (print value ++ printFields fields)

end

/-- Run a reader `count` times. -/
def readMany {α : Type} (read : Str → Option (α × Str)) : Nat → Str → Option (List α × Str)
  | 0, s => some ([], s)
  | count + 1, s =>
    (read s).bind fun first =>
      (readMany read count first.2).map fun rest => (first.1 :: rest.1, rest.2)

/-- Read a key and then a value. -/
def readField (read : Str → Option (Value × Str)) (s : Str) :
    Option ((Str × Value) × Str) :=
  (readStr s).bind fun key =>
    (read key.2).map fun value => ((key.1, value.1), value.2)

/-- Read a value nested at most `fuel` deep. -/
def read : Nat → Str → Option (Value × Str)
  | 0, _ => none
  | fuel + 1, s =>
    match s with
    | 'n' :: rest => some (.null, rest)
    | 't' :: rest => some (.bool true, rest)
    | 'f' :: rest => some (.bool false, rest)
    | 'i' :: rest => (readInt rest).map fun value => (.num (.int value.1), value.2)
    | 'd' :: rest =>
      (readInt rest).bind fun digits =>
        (readInt digits.2).map fun exponent =>
          (.num (.float digits.1 exponent.1), exponent.2)
    | 's' :: rest => (readStr rest).map fun value => (.str value.1, value.2)
    | 'a' :: rest =>
      (readNat rest).bind fun count =>
        (readMany (read fuel) count.1 count.2).map fun items => (.arr items.1, items.2)
    | 'o' :: rest =>
      (readNat rest).bind fun count =>
        (readMany (readField (read fuel)) count.1 count.2).bind fun fields =>
          if (fields.1.map Prod.fst).Pairwise (· < ·) then
            some (.obj fields.1, fields.2)
          else
            none
    | _ => none

/-- Parse an encoded text form that is consumed entirely. -/
def parse (octets : Octets) : Option Value :=
  (fromUtf8 octets).bind fun s =>
    match read (s.length + 1) s with
    | some (value, []) => some value
    | _ => none

/-! ## Reading back what was written -/

@[simp]
theorem readNat_writeNat (n : Nat) (rest : Str) :
    readNat (writeNat n ++ rest) = some (n, rest) := by
  have closed : ';' ∉ Nat.toDigits 10 n := by
    intro member
    have digit := Nat.isDigit_of_mem_toDigits (by decide) (by decide) member
    exact absurd digit (by decide)
  have cut :
      splitOnce [';'] (Nat.toDigits 10 n ++ ';' :: rest) =
        some (Nat.toDigits 10 n, rest) :=
    splitOnce_char_of_not_mem closed
  simp only [readNat, writeNat, List.append_assoc, List.singleton_append, cut,
    Option.map_some, Nat.ofDigitChars_toDigits (b := 10) (by decide) (by decide)]

@[simp]
theorem readInt_writeInt (z : Int) (rest : Str) :
    readInt (writeInt z ++ rest) = some (z, rest) := by
  cases z <;> simp [writeInt, readInt]

@[simp]
theorem readStr_writeStr (s rest : Str) :
    readStr (writeStr s ++ rest) = some (s, rest) := by
  simp [readStr, writeStr, List.append_assoc]

mutual

/-- Nesting depth of a value. -/
def depth : Value → Nat
  | .null | .bool _ | .num _ | .str _ => 1
  | .arr items => depthItems items + 1
  | .obj fields => depthFields fields + 1

/-- The greatest depth among items. -/
def depthItems : List Value → Nat
  | [] => 0
  | item :: items => max (depth item) (depthItems items)

/-- The greatest depth among fields. -/
def depthFields : List (Str × Value) → Nat
  | [] => 0
  | (_, value) :: fields => max (depth value) (depthFields fields)

end

mutual

theorem read_print :
    (value : Value) → value.WellFormed → ∀ (fuel : Nat) (rest : Str),
      depth value ≤ fuel → read fuel (print value ++ rest) = some (value, rest)
  | .null, _, fuel + 1, rest, _ => by simp [print, read]
  | .bool true, _, fuel + 1, rest, _ => by simp [print, read]
  | .bool false, _, fuel + 1, rest, _ => by simp [print, read]
  | .num (.int value), _, fuel + 1, rest, _ => by simp [print, read]
  | .num (.float digits exponent), _, fuel + 1, rest, _ => by simp [print, read]
  | .str value, _, fuel + 1, rest, _ => by simp [print, read]
  | .arr items, wellFormed, fuel + 1, rest, deep => by
      have shallow : depthItems items ≤ fuel := by
        simpa [depth] using deep
      simp [print, read, readMany_printItems items wellFormed fuel rest shallow]
  | .obj fields, wellFormed, fuel + 1, rest, deep => by
      have shallow : depthFields fields ≤ fuel := by
        simpa [depth] using deep
      have ordered : (fields.map Prod.fst).Pairwise (· < ·) := wellFormed.1
      simp [print, read, readMany_printFields fields wellFormed.2 fuel rest shallow, ordered]
  | .null, _, 0, _, deep | .bool _, _, 0, _, deep | .num _, _, 0, _, deep
  | .str _, _, 0, _, deep | .arr _, _, 0, _, deep | .obj _, _, 0, _, deep => by
      simp [depth] at deep

theorem readMany_printItems :
    (items : List Value) → Value.WellFormedItems items → ∀ (fuel : Nat) (rest : Str),
      depthItems items ≤ fuel →
        readMany (read fuel) items.length (printItems items ++ rest) = some (items, rest)
  | [], _, _, _, _ => rfl
  | item :: items, wellFormed, fuel, rest, deep => by
      have bounds := max_le_iff.mp deep
      simp only [List.length_cons, readMany, printItems, List.append_assoc]
      rw [read_print item wellFormed.1 fuel _ bounds.1]
      simp [readMany_printItems items wellFormed.2 fuel rest bounds.2]

theorem readMany_printFields :
    (fields : List (Str × Value)) → Value.WellFormedFields fields →
      ∀ (fuel : Nat) (rest : Str), depthFields fields ≤ fuel →
        readMany (readField (read fuel)) fields.length (printFields fields ++ rest) =
          some (fields, rest)
  | [], _, _, _, _ => rfl
  | (key, value) :: fields, wellFormed, fuel, rest, deep => by
      have bounds := max_le_iff.mp deep
      simp only [List.length_cons, readMany, printFields, readField, List.append_assoc,
        readStr_writeStr, Option.bind_some]
      rw [read_print value wellFormed.1 fuel _ bounds.1]
      simp [readMany_printFields fields wellFormed.2 fuel rest bounds.2]

end

mutual

theorem depth_le_length_print : (value : Value) → depth value ≤ (print value).length
  | .null | .bool true | .bool false => by simp [depth, print]
  | .num (.int _) | .num (.float _ _) | .str _ => by simp [depth, print]
  | .arr items => by
      have inner := depthItems_le_length items
      simp only [depth, print, List.length_cons, List.length_append]
      omega
  | .obj fields => by
      have inner := depthFields_le_length fields
      simp only [depth, print, List.length_cons, List.length_append]
      omega

theorem depthItems_le_length :
    (items : List Value) → depthItems items ≤ (printItems items).length
  | [] => by simp [depthItems]
  | item :: items => by
      have head := depth_le_length_print item
      have tail := depthItems_le_length items
      simp only [depthItems, printItems, List.length_append]
      omega

theorem depthFields_le_length :
    (fields : List (Str × Value)) → depthFields fields ≤ (printFields fields).length
  | [] => by simp [depthFields]
  | (key, value) :: fields => by
      have head := depth_le_length_print value
      have tail := depthFields_le_length fields
      simp only [depthFields, printFields, List.length_append]
      omega

end

/-! ## Only well-formed values are read -/

theorem wellFormedItems_of_readMany {reader : Str → Option (Value × Str)}
    (sound : ∀ s value rest, reader s = some (value, rest) → value.WellFormed) {count : Nat}
    {s rest : Str} {items : List Value} (parsed : readMany reader count s = some (items, rest)) :
    Value.WellFormedItems items := by
  induction count generalizing s items with
  | zero =>
    cases parsed
    trivial
  | succ count ih =>
    simp only [readMany, Option.bind_eq_some_iff, Option.map_eq_some_iff] at parsed
    obtain ⟨⟨first, afterFirst⟩, head, ⟨others, afterOthers⟩, tail, assembled⟩ := parsed
    cases assembled
    exact ⟨sound _ _ _ head, ih tail⟩

theorem wellFormedFields_of_readMany {reader : Str → Option (Value × Str)}
    (sound : ∀ s value rest, reader s = some (value, rest) → value.WellFormed) {count : Nat}
    {s rest : Str} {fields : List (Str × Value)}
    (parsed : readMany (readField reader) count s = some (fields, rest)) :
    Value.WellFormedFields fields := by
  induction count generalizing s fields with
  | zero =>
    cases parsed
    trivial
  | succ count ih =>
    simp only [readMany, readField, Option.bind_eq_some_iff, Option.map_eq_some_iff] at parsed
    obtain ⟨first, ⟨key, -, value, head, rfl⟩, others, tail, assembled⟩ := parsed
    cases assembled
    exact ⟨sound _ _ _ head, ih tail⟩

theorem wellFormed_of_read {fuel : Nat} {s rest : Str} {value : Value}
    (parsed : read fuel s = some (value, rest)) : value.WellFormed := by
  induction fuel generalizing s rest value with
  | zero => cases parsed
  | succ fuel ih =>
    have sound :
        ∀ s value rest, read fuel s = some (value, rest) → value.WellFormed :=
      fun _ _ _ nested => ih nested
    simp only [read] at parsed
    split at parsed
    case h_7 =>
      simp only [Option.bind_eq_some_iff, Option.map_eq_some_iff] at parsed
      obtain ⟨count, -, ⟨items, after⟩, nested, assembled⟩ := parsed
      cases assembled
      exact wellFormedItems_of_readMany sound nested
    case h_8 =>
      simp only [Option.bind_eq_some_iff] at parsed
      obtain ⟨count, -, ⟨fields, after⟩, nested, assembled⟩ := parsed
      split at assembled
      next ordered =>
        cases assembled
        exact ⟨ordered, wellFormedFields_of_readMany sound nested⟩
      next => cases assembled
    case h_9 => cases parsed
    -- The remaining tags build scalars, which hold no object.
    all_goals
      simp only [Option.bind_eq_some_iff, Option.map_eq_some_iff, Option.some.injEq,
        Prod.mk.injEq] at parsed
      grind [Value.WellFormed]

theorem parse_print (value : Value) (wellFormed : value.WellFormed) :
    parse (utf8 (print value)) = some value := by
  have fits : depth value ≤ (print value).length + 1 :=
    Nat.le_succ_of_le (depth_le_length_print value)
  have readBack := read_print value wellFormed _ [] fits
  rw [List.append_nil] at readBack
  simp [parse, readBack]

theorem wellFormed_of_parse (octets : Octets) (value : Value) (parsed : parse octets = some value) :
    value.WellFormed := by
  obtain ⟨s, -, reading⟩ := Option.bind_eq_some_iff.mp parsed
  split at reading
  next parsedValue complete =>
    cases reading
    exact wellFormed_of_read complete
  next => cases reading

/-- The text form as a codec. -/
def codec : Codec where
  print := print
  parse := parse
  parseError := fun _ => "malformed value"
  parse_print := parse_print
  wellFormed_of_parse := wellFormed_of_parse

end Tagged

end Rs2Runtime.Json
