import Rs2Runtime.Text.Basic

/-!
Contract: octet encodings of text.

Owns:
- UTF-8 encoding, strict decoding and decoding with replacement characters;
- the round trip of strict decoding over encoding;
- percent decoding, the lower-case hexadecimal form and the base64 form of an octet
  string.
-/

namespace Rs2Runtime.Text

/-- A finite octet string. -/
abbrev Octets := List UInt8

/-! ## UTF-8 -/

/-- The UTF-8 encoding of one character. -/
def encodeChar (c : Char) : Octets :=
  let n := c.toNat
  if n < 0x80 then
    [n.toUInt8]
  else if n < 0x800 then
    [(0xC0 + n / 0x40).toUInt8, (0x80 + n % 0x40).toUInt8]
  else if n < 0x10000 then
    [(0xE0 + n / 0x1000).toUInt8, (0x80 + n / 0x40 % 0x40).toUInt8,
      (0x80 + n % 0x40).toUInt8]
  else
    [(0xF0 + n / 0x40000).toUInt8, (0x80 + n / 0x1000 % 0x40).toUInt8,
      (0x80 + n / 0x40 % 0x40).toUInt8, (0x80 + n % 0x40).toUInt8]

/-- The UTF-8 encoding of a text. -/
def utf8 (s : Str) : Octets :=
  s.flatMap encodeChar

/-- Read one continuation octet whose value lies in a range. -/
def readTail (low high : Nat) : Octets → Option (Nat × Octets)
  | [] => none
  | b :: rest =>
    if low ≤ b.toNat ∧ b.toNat ≤ high then some (b.toNat - 0x80, rest) else none

/-- The range of the octet after `lead` in a three- or four-octet sequence. -/
def secondRange (lead : Nat) : Nat × Nat :=
  if lead = 0xE0 then (0xA0, 0xBF)
  else if lead = 0xED then (0x80, 0x9F)
  else if lead = 0xF0 then (0x90, 0xBF)
  else if lead = 0xF4 then (0x80, 0x8F)
  else (0x80, 0xBF)

/-- Decode the character at the front.  The character is absent for an ill-formed
sequence, whose longest usable part is consumed. -/
def decodeNext (lead : Nat) (rest : Octets) : Option Char × Octets :=
  if lead < 0x80 then
    (some (Char.ofNat lead), rest)
  else if 0xC2 ≤ lead ∧ lead ≤ 0xDF then
    match readTail 0x80 0xBF rest with
    | some (low, rest) => (some (Char.ofNat ((lead - 0xC0) * 0x40 + low)), rest)
    | none => (none, rest)
  else if 0xE0 ≤ lead ∧ lead ≤ 0xEF then
    match readTail (secondRange lead).1 (secondRange lead).2 rest with
    | some (mid, rest) =>
      match readTail 0x80 0xBF rest with
      | some (low, rest) =>
        (some (Char.ofNat ((lead - 0xE0) * 0x1000 + mid * 0x40 + low)), rest)
      | none => (none, rest)
    | none => (none, rest)
  else if 0xF0 ≤ lead ∧ lead ≤ 0xF4 then
    match readTail (secondRange lead).1 (secondRange lead).2 rest with
    | some (high, rest) =>
      match readTail 0x80 0xBF rest with
      | some (mid, rest) =>
        match readTail 0x80 0xBF rest with
        | some (low, rest) =>
          (some (Char.ofNat
            ((lead - 0xF0) * 0x40000 + high * 0x1000 + mid * 0x40 + low)), rest)
        | none => (none, rest)
      | none => (none, rest)
    | none => (none, rest)
  else
    (none, rest)

/-- Decode at most `fuel` sequences, each to a character or to an ill-formed mark. -/
def decodeSteps : Nat → Octets → List (Option Char)
  | 0, _ => []
  | _ + 1, [] => []
  | fuel + 1, lead :: rest =>
    let step := decodeNext lead.toNat rest
    step.1 :: decodeSteps fuel step.2

/-- Strict UTF-8 decoding. -/
def fromUtf8 (octets : Octets) : Option Str :=
  (decodeSteps octets.length octets).mapM id

/-- UTF-8 decoding with U+FFFD for every ill-formed sequence. -/
def fromUtf8Lossy (octets : Octets) : Str :=
  (decodeSteps octets.length octets).map (·.getD (Char.ofNat 0xFFFD))

private theorem readTail_cons {low high n : Nat} (rest : Octets) (lower : low ≤ n)
    (upper : n ≤ high) (octet : n < 256) :
    readTail low high (n.toUInt8 :: rest) = some (n - 0x80, rest) := by
  have value : (n.toUInt8).toNat = n := by
    simp [Nat.mod_eq_of_lt octet]
  simp [readTail, value, lower, upper]

/-- Decoding reads back the encoding of one character and leaves the rest. -/
theorem decodeNext_encodeChar (c : Char) (rest : Octets) :
    ∃ lead tail, encodeChar c = lead :: tail ∧
      decodeNext lead.toNat (tail ++ rest) = (some c, rest) := by
  have valid : c.toNat < 0xD800 ∨ 0xDFFF < c.toNat ∧ c.toNat < 0x110000 := c.valid
  have restore : ∀ n, n = c.toNat → Char.ofNat n = c := by
    rintro n rfl
    exact Char.ofNat_toNat c
  have lead_value : ∀ n, n < 256 → (n.toUInt8).toNat = n := by
    intro n octet
    simp [Nat.mod_eq_of_lt octet]
  unfold encodeChar
  by_cases one : c.toNat < 0x80
  · refine ⟨_, _, if_pos one, ?_⟩
    rw [lead_value _ (by omega)]
    simp only [decodeNext, if_pos one, List.nil_append]
    rw [restore _ rfl]
  by_cases two : c.toNat < 0x800
  · refine ⟨_, _, by rw [if_neg one, if_pos two], ?_⟩
    rw [lead_value _ (by omega)]
    simp only [decodeNext, List.cons_append, List.nil_append]
    rw [if_neg (by omega), if_pos (by omega),
      readTail_cons rest (by omega) (by omega) (by omega)]
    simp only [Prod.mk.injEq, Option.some.injEq, and_true]
    exact restore _ (by omega)
  by_cases three : c.toNat < 0x10000
  · refine ⟨_, _, by rw [if_neg one, if_neg two, if_pos three], ?_⟩
    rw [lead_value _ (by omega)]
    have second :
        (secondRange (0xE0 + c.toNat / 0x1000)).1 ≤ 0x80 + c.toNat / 0x40 % 0x40 ∧
          0x80 + c.toNat / 0x40 % 0x40 ≤ (secondRange (0xE0 + c.toNat / 0x1000)).2 := by
      unfold secondRange
      split_ifs <;> simp only <;> omega
    simp only [decodeNext, List.cons_append, List.nil_append]
    rw [if_neg (by omega), if_neg (by omega), if_pos (by omega),
      readTail_cons _ second.1 second.2 (by omega)]
    simp only
    rw [readTail_cons rest (by omega) (by omega) (by omega)]
    simp only [Prod.mk.injEq, Option.some.injEq, and_true]
    exact restore _ (by omega)
  · refine ⟨_, _, by rw [if_neg one, if_neg two, if_neg three], ?_⟩
    rw [lead_value _ (by omega)]
    have second :
        (secondRange (0xF0 + c.toNat / 0x40000)).1 ≤ 0x80 + c.toNat / 0x1000 % 0x40 ∧
          0x80 + c.toNat / 0x1000 % 0x40 ≤
            (secondRange (0xF0 + c.toNat / 0x40000)).2 := by
      unfold secondRange
      split_ifs <;> simp only <;> omega
    simp only [decodeNext, List.cons_append, List.nil_append]
    rw [if_neg (by omega), if_neg (by omega), if_neg (by omega), if_pos (by omega),
      readTail_cons _ second.1 second.2 (by omega)]
    simp only
    rw [readTail_cons _ (by omega) (by omega) (by omega)]
    simp only
    rw [readTail_cons rest (by omega) (by omega) (by omega)]
    simp only [Prod.mk.injEq, Option.some.injEq, and_true]
    exact restore _ (by omega)

/-- Enough steps decode an encoded text to exactly its characters. -/
theorem decodeSteps_utf8 (s : Str) {fuel : Nat} (enough : s.length ≤ fuel) :
    decodeSteps fuel (utf8 s) = s.map some := by
  induction s generalizing fuel with
  | nil => cases fuel <;> rfl
  | cons c cs ih =>
    cases fuel with
    | zero => simp at enough
    | succ fuel =>
      have decoded := decodeNext_encodeChar c (utf8 cs)
      obtain ⟨lead, tail, encoded, decoded⟩ := decoded
      have split : utf8 (c :: cs) = lead :: (tail ++ utf8 cs) := by
        simp [utf8, encoded]
      rw [split]
      simp only [decodeSteps, decoded, List.map_cons]
      rw [ih (by simpa using enough)]

theorem length_le_length_utf8 (s : Str) : s.length ≤ (utf8 s).length := by
  induction s with
  | nil => simp
  | cons c cs ih =>
    have decoded := decodeNext_encodeChar c []
    obtain ⟨lead, tail, encoded, -⟩ := decoded
    simp only [utf8, List.flatMap_cons, encoded, List.cons_append, List.length_cons,
      List.length_append]
    unfold utf8 at ih
    omega

/-- Strict decoding inverts encoding. -/
@[simp]
theorem fromUtf8_utf8 (s : Str) : fromUtf8 (utf8 s) = some s := by
  unfold fromUtf8
  rw [decodeSteps_utf8 s (length_le_length_utf8 s)]
  induction s with
  | nil => rfl
  | cons c cs ih =>
    simp only [List.map_cons, List.mapM_cons, id, ih]
    rfl

/-- Encoding is injective. -/
theorem utf8_injective : Function.Injective utf8 := by
  intro left right same
  have decoded := congrArg fromUtf8 same
  simpa using decoded

/-- A character is one ASCII octet, or all of its octets are outside of ASCII. -/
theorem encodeChar_ascii_or_wide (c : Char) :
    (∃ octet, encodeChar c = [octet] ∧ octet.toNat = c.toNat) ∨
      encodeChar c ≠ [] ∧ ∀ octet ∈ encodeChar c, 0x80 ≤ octet.toNat := by
  have valid : c.toNat < 0xD800 ∨ 0xDFFF < c.toNat ∧ c.toNat < 0x110000 := c.valid
  have value : ∀ n, n < 256 → (n.toUInt8).toNat = n := by
    intro n octet
    simp [Nat.mod_eq_of_lt octet]
  unfold encodeChar
  dsimp only
  by_cases one : c.toNat < 0x80
  · rw [if_pos one]
    exact .inl ⟨_, rfl, value _ (by omega)⟩
  · right
    rw [if_neg one]
    by_cases two : c.toNat < 0x800
    · rw [if_pos two, List.forall_mem_cons, List.forall_mem_singleton, value _ (by omega),
        value _ (by omega)]
      exact ⟨List.cons_ne_nil _ _, by omega, by omega⟩
    · rw [if_neg two]
      by_cases three : c.toNat < 0x10000
      · rw [if_pos three, List.forall_mem_cons, List.forall_mem_cons, List.forall_mem_singleton,
          value _ (by omega), value _ (by omega), value _ (by omega)]
        exact ⟨List.cons_ne_nil _ _, by omega, by omega, by omega⟩
      · rw [if_neg three, List.forall_mem_cons, List.forall_mem_cons, List.forall_mem_cons,
          List.forall_mem_singleton, value _ (by omega), value _ (by omega), value _ (by omega),
          value _ (by omega)]
        exact ⟨List.cons_ne_nil _ _, by omega, by omega, by omega, by omega⟩

/-- An ASCII octet in the encoding of a text is a character of the text. -/
theorem exists_split_of_utf8 {text : Str} {c : Char} {octet : UInt8} (ascii : octet.toNat < 0x80)
    (own : octet.toNat = c.toNat) {front back : Octets} (encoded : utf8 text = front ++ octet :: back) :
    ∃ before after, text = before ++ c :: after ∧ utf8 before = front ∧ utf8 after = back := by
  induction text generalizing front with
  | nil =>
    have lengths := congrArg List.length encoded
    simp [utf8] at lengths
  | cons first rest ih =>
    have split : utf8 (first :: rest) = encodeChar first ++ utf8 rest := rfl
    rw [split, List.append_eq_append_iff] at encoded
    rcases encoded with ⟨more, rfl, later⟩ | ⟨part, whole, later⟩
    · obtain ⟨before, after, rfl, same, same'⟩ := ih later
      exact ⟨first :: before, after, rfl, congrArg (encodeChar first ++ ·) same, same'⟩
    · cases part with
      | nil =>
        rw [List.append_nil] at whole
        obtain ⟨before, after, rfl, same, same'⟩ := @ih [] later.symm
        refine ⟨first :: before, after, rfl, ?_, same'⟩
        rw [← whole]
        show encodeChar first ++ utf8 before = encodeChar first
        rw [same, List.append_nil]
      | cons head part =>
        -- the octet is one of the first character's, which then is the character itself
        obtain ⟨rfl, rest_⟩ := List.cons.inj later
        rcases encodeChar_ascii_or_wide first with ⟨single, is, value⟩ | ⟨-, wide⟩
        · rw [is] at whole
          have lengths := congrArg List.length whole
          simp only [List.length_append, List.length_cons, List.length_nil] at lengths
          have noFront : front = [] := List.eq_nil_of_length_eq_zero (by omega)
          have noPart : part = [] := List.eq_nil_of_length_eq_zero (by omega)
          subst noFront noPart
          have octets : single = octet := List.singleton_injective whole
          have same : first = c := Char.toNat_inj.mp (by rw [← value, octets, own])
          subst same
          exact ⟨[], rest, rfl, rfl, rest_.symm⟩
        · have large := wide octet (by rw [whole]; simp)
          omega

/-! ## Percent decoding -/

/-- The value of a hexadecimal digit. -/
def hexValue (c : Char) : Option Nat :=
  let n := c.toNat
  if 48 ≤ n ∧ n ≤ 57 then some (n - 48)
  else if 65 ≤ n ∧ n ≤ 70 then some (n - 55)
  else if 97 ≤ n ∧ n ≤ 102 then some (n - 87)
  else none

/-- The octets of a percent-encoded text: `%` and two hexadecimal digits make one octet,
every other character stands for its encoding. -/
def percentOctets : Str → Octets
  | [] => []
  | [c] => encodeChar c
  | [c, d] => encodeChar c ++ encodeChar d
  | c :: d :: e :: rest =>
    match c == '%', hexValue d, hexValue e with
    | true, some high, some low => (high * 16 + low).toUInt8 :: percentOctets rest
    | _, _, _ => encodeChar c ++ percentOctets (d :: e :: rest)

/-- Percent decoding, with U+FFFD where the octets are not UTF-8. -/
def percentDecode (s : Str) : Str :=
  fromUtf8Lossy (percentOctets s)

/-! ## Hexadecimal -/

/-- One lower-case hexadecimal digit. -/
def hexDigit (n : Nat) : Char :=
  Char.ofNat (if n < 10 then 48 + n else 87 + n)

/-- The lower-case hexadecimal form of an octet string. -/
def toHex (octets : Octets) : Str :=
  octets.flatMap fun b => [hexDigit (b.toNat / 16), hexDigit (b.toNat % 16)]

theorem hexDigit_injOn {left right : Nat} (leftDigit : left < 16) (rightDigit : right < 16)
    (same : hexDigit left = hexDigit right) : left = right := by
  revert same rightDigit
  revert right
  revert leftDigit
  revert left
  decide

theorem toHex_injective : Function.Injective toHex := by
  intro left right same
  induction left generalizing right with
  | nil =>
    cases right with
    | nil => rfl
    | cons b right => cases same
  | cons a left ih =>
    cases right with
    | nil => cases same
    | cons b right =>
      simp only [toHex, List.flatMap_cons, List.cons_append, List.nil_append,
        List.cons.injEq] at same
      obtain ⟨high, low, rest⟩ := same
      have aBound : a.toNat < 256 := a.toNat_lt
      have bBound : b.toNat < 256 := b.toNat_lt
      have sameHigh := hexDigit_injOn (by omega) (by omega) high
      have sameLow := hexDigit_injOn (by omega) (by omega) low
      have sameOctet : a = b := UInt8.toNat_inj.mp (by omega)
      rw [sameOctet, ih rest]

/-! ## Base64 -/

/-- One digit of the standard base64 alphabet. -/
def base64Digit (n : Nat) : Char :=
  if n < 26 then Char.ofNat (65 + n)
  else if n < 52 then Char.ofNat (71 + n)
  else if n < 62 then Char.ofNat (n - 4)
  else if n = 62 then '+'
  else '/'

/-- The padded standard base64 form of an octet string. -/
def base64 : Octets → Str
  | [] => []
  | [a] =>
    let n := a.toNat * 0x10000
    [base64Digit (n / 0x40000), base64Digit (n / 0x1000 % 0x40), '=', '=']
  | [a, b] =>
    let n := a.toNat * 0x10000 + b.toNat * 0x100
    [base64Digit (n / 0x40000), base64Digit (n / 0x1000 % 0x40),
      base64Digit (n / 0x40 % 0x40), '=']
  | a :: b :: c :: rest =>
    let n := a.toNat * 0x10000 + b.toNat * 0x100 + c.toNat
    [base64Digit (n / 0x40000), base64Digit (n / 0x1000 % 0x40),
      base64Digit (n / 0x40 % 0x40), base64Digit (n % 0x40)] ++ base64 rest

end Rs2Runtime.Text
