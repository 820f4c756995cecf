import Rs2Runtime.Text.Escaping

/-!
Contract: `application/x-www-form-urlencoded` texts.

Owns:
- the encoding of a text, where a space is a plus sign and a plus sign is an escape;
- what percent decoding makes of it;
- which texts the encoding leaves alone.
-/

namespace Rs2Runtime.Text

/-- A character that form encoding leaves alone. -/
def isFormPlain (c : Char) : Bool :=
  c.isAlphanum || c = '*' || c = '-' || c = '.' || c = '_'

def formEscapeChar (c : Char) : Str :=
  if isFormPlain c then [c]
  else if c = ' ' then ['+']
  else escapeOctets (fun _ => false) (encodeChar c)

/-- A text as a form sends it. -/
def formEscape (s : Str) : Str :=
  s.flatMap formEscapeChar

def spaceToPlus (c : Char) : Char :=
  if c = ' ' then '+' else c

def plusToSpace (c : Char) : Char :=
  if c = '+' then ' ' else c

theorem ne_of_isFormPlain {c other : Char} (plain : isFormPlain c = true)
    (reserved : isFormPlain other = false) : c ≠ other := by
  rintro rfl
  rw [plain] at reserved
  cases reserved

/-! ## Decoding -/

theorem percentOctets_formEscapeChar (c : Char) (tail : Str) :
    percentOctets (formEscapeChar c ++ tail) = encodeChar (spaceToPlus c) ++ percentOctets tail := by
  unfold formEscapeChar spaceToPlus
  by_cases plain : isFormPlain c = true
  · have notSpace : c ≠ ' ' := ne_of_isFormPlain plain (by decide)
    have ordinary : c ≠ '%' := ne_of_isFormPlain plain (by decide)
    rw [if_pos plain, if_neg notSpace]
    exact percentOctets_cons_of_ne ordinary tail
  · rw [if_neg plain]
    by_cases space : c = ' '
    · rw [if_pos space, if_pos space]
      exact percentOctets_cons_of_ne (by decide) tail
    · rw [if_neg space, if_neg space]
      exact percentOctets_escapeOctets (fun octet stays => by cases stays) (encodeChar c) tail

/-- Percent decoding gives the text back, with plus signs for its spaces. -/
theorem percentDecode_formEscape (s : Str) : percentDecode (formEscape s) = s.map spaceToPlus := by
  have octets : percentOctets (formEscape s) = utf8 (s.map spaceToPlus) := by
    induction s with
    | nil => rfl
    | cons c s ih =>
      rw [formEscape, List.flatMap_cons, percentOctets_formEscapeChar]
      exact congrArg (encodeChar (spaceToPlus c) ++ ·) ih
  unfold percentDecode
  rw [octets, fromUtf8Lossy_utf8]

theorem map_plusToSpace_eq_self {s : Str} : s.map plusToSpace = s ↔ '+' ∉ s := by
  constructor
  · intro same member
    rw [← same, List.mem_map] at member
    obtain ⟨c, -, isPlus⟩ := member
    unfold plusToSpace at isPlus
    split at isPlus
    · cases isPlus
    · contradiction
  · intro absent
    have fixed : ∀ c ∈ s, plusToSpace c = id c := by
      intro c member
      refine if_neg ?_
      rintro rfl
      exact absent member
    rw [List.map_congr_left fixed, List.map_id]

/-! ## What the encoding leaves alone -/

theorem formEscape_of_plain {s : Str} (plain : ∀ c ∈ s, isFormPlain c = true) :
    formEscape s = s := by
  induction s with
  | nil => rfl
  | cons c s ih =>
    rw [formEscape, List.flatMap_cons, formEscapeChar, if_pos (plain c List.mem_cons_self)]
    exact congrArg (c :: ·) (ih fun other member => plain other (List.mem_cons_of_mem c member))

theorem isFormPlain_upperHexDigit {n : Nat} (digit : n < 16) :
    isFormPlain (upperHexDigit n) = true := by
  revert digit
  revert n
  decide

theorem mem_formEscape {s : Str} {c : Char} (member : c ∈ formEscape s) :
    isFormPlain c = true ∨ c = '+' ∨ c = '%' := by
  obtain ⟨original, -, member⟩ := List.mem_flatMap.mp member
  unfold formEscapeChar at member
  split at member
  case isTrue plain =>
    rw [List.mem_singleton.mp member]
    exact Or.inl plain
  case isFalse =>
    split at member
    · exact Or.inr (Or.inl (List.mem_singleton.mp member))
    · obtain ⟨octet, -, member⟩ := List.mem_flatMap.mp member
      have bound := octet.toNat_lt
      simp only [escapeOctet, Bool.false_eq_true, if_false, List.mem_cons, List.not_mem_nil,
        or_false] at member
      rcases member with rfl | rfl | rfl
      · exact Or.inr (Or.inr rfl)
      · exact Or.inl (isFormPlain_upperHexDigit (by omega))
      · exact Or.inl (isFormPlain_upperHexDigit (by omega))

theorem not_mem_formEscape {c : Char} (reserved : isFormPlain c = false) (notPlus : c ≠ '+')
    (notPercent : c ≠ '%') (s : Str) : c ∉ formEscape s := by
  intro member
  rcases mem_formEscape member with plain | isPlus | isPercent
  · rw [reserved] at plain
    cases plain
  · exact notPlus isPlus
  · exact notPercent isPercent

/-- Spaces weigh less than other characters, so that encoding makes every text heavier that it
does not leave alone. -/
def weight (s : Str) : Nat :=
  (s.map fun c => if c = ' ' then 1 else 2).sum

theorem weight_cons (c : Char) (s : Str) :
    weight (c :: s) = (if c = ' ' then 1 else 2) + weight s :=
  List.sum_cons

theorem weight_append (s t : Str) : weight (s ++ t) = weight s + weight t := by
  unfold weight
  rw [List.map_append, List.sum_append]

theorem length_le_weight (s : Str) : s.length ≤ weight s := by
  induction s with
  | nil => exact Nat.le_refl 0
  | cons c s ih =>
    rw [List.length_cons, weight_cons]
    split <;> omega

theorem weight_formEscapeChar {c : Char} (reserved : ¬isFormPlain c = true) :
    weight [c] < weight (formEscapeChar c) := by
  unfold formEscapeChar
  rw [if_neg reserved]
  by_cases space : c = ' '
  · subst space
    decide
  · have escapes : 3 ≤ (escapeOctets (fun _ => false) (encodeChar c)).length := by
      obtain ⟨octet, octets, encoded, -⟩ := decodeNext_encodeChar c []
      rw [encoded]
      simp [escapeOctets, escapeOctet]
    have heavier := length_le_weight (escapeOctets (fun _ => false) (encodeChar c))
    rw [if_neg space, weight_cons, if_neg space]
    show 2 + 0 < _
    omega

/-- A text that encoding changes is lighter than its encoding. -/
theorem weight_lt_formEscape {s : Str} (reserved : ∃ c ∈ s, ¬isFormPlain c = true) :
    weight s < weight (formEscape s) := by
  have never : ∀ s : Str, weight s ≤ weight (formEscape s) := by
    intro s
    induction s with
    | nil => exact Nat.le_refl 0
    | cons c s ih =>
      rw [formEscape, List.flatMap_cons, weight_append, ← List.singleton_append, weight_append]
      refine Nat.add_le_add ?_ ih
      by_cases plain : isFormPlain c = true
      · rw [formEscapeChar, if_pos plain]
      · exact Nat.le_of_lt (weight_formEscapeChar plain)
  obtain ⟨c, member, reserved⟩ := reserved
  obtain ⟨left, right, rfl⟩ := List.append_of_mem member
  have first := never left
  have last := never right
  have middle := weight_formEscapeChar reserved
  unfold formEscape at first last ⊢
  rw [List.flatMap_append, List.flatMap_cons, weight_append, weight_append, weight_append,
    ← List.singleton_append, weight_append]
  omega

end Rs2Runtime.Text
