import Rs2Runtime.Text.Utf8

/-!
Contract: percent escapes of text.

Owns:
- escaping the octets of a text, and reading it back;
- percent decoding, one character or escape at a time;
- occurrences of a text in pieces.
-/

namespace Rs2Runtime.Text

/-! ## Occurrences -/

theorem contains_iff_within (part s : Str) : contains part s = true ↔ part <:+: s := by
  rw [← not_iff_not, Bool.not_eq_true]
  have absent : contains part s = false ↔ splitOnce part s = none := by
    unfold contains
    cases splitOnce part s <;> simp
  rw [absent, splitOnce_eq_none]
  constructor
  · rintro nowhere ⟨left, right, cut⟩
    exact nowhere left (part ++ right) (by rw [← cut, List.append_assoc]) (List.prefix_append _ _)
  · rintro nowhere left right cut ⟨rest, starts⟩
    exact nowhere ⟨left, rest, by rw [cut, ← starts, List.append_assoc]⟩

/-! ## Lossy decoding -/

@[simp]
theorem fromUtf8Lossy_utf8 (s : Str) : fromUtf8Lossy (utf8 s) = s := by
  unfold fromUtf8Lossy
  rw [decodeSteps_utf8 s (length_le_length_utf8 s), List.map_map]
  exact List.map_id s

/-! ## Percent decoding -/

/-- The octet that two hexadecimal digits stand for, with the text after them. -/
def hexPair : Str → Option (UInt8 × Str)
  | high :: low :: rest =>
    match hexValue high, hexValue low with
    | some h, some l => some ((h * 16 + l).toUInt8, rest)
    | _, _ => none
  | _ => none

theorem percentOctets_cons (c : Char) (rest : Str) :
    percentOctets (c :: rest) =
      match if c = '%' then hexPair rest else none with
      | some (octet, rest) => octet :: percentOctets rest
      | none => encodeChar c ++ percentOctets rest := by
  match rest with
  | [] => by_cases percent : c = '%' <;> simp [percentOctets, hexPair, percent]
  | [d] => by_cases percent : c = '%' <;> simp [percentOctets, hexPair, percent]
  | d :: e :: rest =>
    rw [percentOctets, hexPair]
    by_cases percent : c = '%'
    · subst percent
      cases hexValue d <;> cases hexValue e <;> rfl
    · have other : (c == '%') = false := by simpa using percent
      rw [other, if_neg percent]

theorem percentOctets_cons_of_ne {c : Char} (ordinary : c ≠ '%') (rest : Str) :
    percentOctets (c :: rest) = encodeChar c ++ percentOctets rest := by
  rw [percentOctets_cons, if_neg ordinary]

theorem length_of_hexPair {s rest : Str} {octet : UInt8} (read : hexPair s = some (octet, rest)) :
    rest.length < s.length := by
  unfold hexPair at read
  split at read
  · split at read
    · cases read
      simp only [List.length_cons]
      omega
    · cases read
  · cases read

theorem hexPair_cons_append {c : Char} (noDigit : hexValue c = none) (s t : Str) :
    hexPair (s ++ c :: t) =
      (hexPair s).map fun read => (read.1, read.2 ++ c :: t) := by
  match s with
  | [] =>
    cases t with
    | nil => rfl
    | cons d t =>
      rw [List.nil_append, hexPair, noDigit]
      rfl
  | [d] =>
    rw [List.singleton_append, hexPair, noDigit]
    cases hexValue d <;> rfl
  | d :: e :: rest =>
    rw [List.cons_append, List.cons_append, hexPair, hexPair]
    cases hexValue d <;> cases hexValue e <;> rfl

/-- A character that is no part of an escape cuts a text in two. -/
theorem percentOctets_append_cons {c : Char} (ordinary : c ≠ '%') (noDigit : hexValue c = none)
    (s t : Str) :
    percentOctets (s ++ c :: t) = percentOctets s ++ (encodeChar c ++ percentOctets t) := by
  -- by the length of the part before, since an escape is read in one step
  induction size : s.length using Nat.strong_induction_on generalizing s with
  | _ length ih =>
    cases s with
    | nil => exact percentOctets_cons_of_ne ordinary t
    | cons d rest =>
      have short : rest.length < length := by
        rw [← size, List.length_cons]
        omega
      rw [List.cons_append, percentOctets_cons, percentOctets_cons]
      by_cases percent : d = '%'
      · rw [if_pos percent, if_pos percent, hexPair_cons_append noDigit]
        cases pair : hexPair rest with
        | none =>
          simp only [Option.map_none]
          rw [ih _ short rest rfl, List.append_assoc]
        | some read =>
          obtain ⟨octet, later⟩ := read
          have shorter : later.length < rest.length := length_of_hexPair pair
          simp only [Option.map_some]
          rw [ih _ (Nat.lt_trans shorter short) later rfl, List.cons_append]
      · rw [if_neg percent, if_neg percent]
        simp only
        rw [ih _ short rest rfl, List.append_assoc]

/-! ## Escaping -/

/-- One upper-case hexadecimal digit. -/
def upperHexDigit (n : Nat) : Char :=
  Char.ofNat (if n < 10 then 48 + n else 55 + n)

/-- An octet that stays as it is, or its escape. -/
def escapeOctet (plain : UInt8 → Bool) (octet : UInt8) : Str :=
  if plain octet then [Char.ofNat octet.toNat]
  else ['%', upperHexDigit (octet.toNat / 16), upperHexDigit (octet.toNat % 16)]

/-- Octets with escapes for all but the plain ones. -/
def escapeOctets (plain : UInt8 → Bool) (octets : Octets) : Str :=
  octets.flatMap (escapeOctet plain)

theorem hexValue_upperHexDigit {n : Nat} (digit : n < 16) :
    hexValue (upperHexDigit n) = some n := by
  revert digit
  revert n
  decide

/-- Which octets may stay: ASCII ones, and not the escape itself. -/
def Escapable (plain : UInt8 → Bool) : Prop :=
  ∀ octet, plain octet = true → octet.toNat < 0x80 ∧ octet ≠ 37

theorem encodeChar_ofNat {octet : UInt8} (ascii : octet.toNat < 0x80) :
    encodeChar (Char.ofNat octet.toNat) = [octet] := by
  have same : (Char.ofNat octet.toNat).toNat = octet.toNat := by
    rw [Char.toNat_ofNat, if_pos (Or.inl (by omega))]
  unfold encodeChar
  rw [same]
  simp [ascii]

/-- Percent decoding reads escaped octets back. -/
theorem percentOctets_escapeOctets {plain : UInt8 → Bool} (escapable : Escapable plain)
    (octets : Octets) (tail : Str) :
    percentOctets (escapeOctets plain octets ++ tail) = octets ++ percentOctets tail := by
  induction octets with
  | nil => rfl
  | cons octet rest ih =>
    have split : escapeOctets plain (octet :: rest) ++ tail =
        escapeOctet plain octet ++ (escapeOctets plain rest ++ tail) := by
      simp [escapeOctets]
    rw [split, List.cons_append, ← ih]
    unfold escapeOctet
    by_cases stays : plain octet = true
    · obtain ⟨ascii, notPercent⟩ := escapable octet stays
      have ordinary : Char.ofNat octet.toNat ≠ '%' := by
        intro percent
        have encoded := encodeChar_ofNat ascii
        rw [percent] at encoded
        exact notPercent (List.singleton_injective encoded.symm)
      rw [if_pos stays]
      rw [List.singleton_append, percentOctets_cons_of_ne ordinary, encodeChar_ofNat ascii]
      rfl
    · have bound := octet.toNat_lt
      have value : octet.toNat / 16 * 16 + octet.toNat % 16 = octet.toNat := by omega
      rw [if_neg stays]
      simp only [List.cons_append, List.nil_append]
      rw [percentOctets_cons, if_pos rfl, hexPair, hexValue_upperHexDigit (by omega),
        hexValue_upperHexDigit (by omega)]
      simp [value]

/-- Percent decoding of well-formed octets is exact. -/
theorem percentDecode_eq {s text : Str} (valid : utf8 text = percentOctets s) :
    percentDecode s = text := by
  unfold percentDecode
  rw [← valid, fromUtf8Lossy_utf8]

theorem percentDecode_escape {plain : UInt8 → Bool} (escapable : Escapable plain) (s : Str) :
    percentDecode (escapeOctets plain (utf8 s)) = s := by
  apply percentDecode_eq
  have read := percentOctets_escapeOctets escapable (utf8 s) []
  rw [List.append_nil] at read
  rw [read]
  exact (List.append_nil _).symm

end Rs2Runtime.Text
