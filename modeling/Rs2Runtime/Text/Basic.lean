import Mathlib

/-!
Contract: text as finite sequences of Unicode scalar values, with the searching,
splitting and trimming operations that request handling is written in.

Owns:
- the text type, literal coercion and character classes;
- first-occurrence splitting and its exact specification;
- stripping, trimming and joining;
- byte-indexed slicing, which fails inside a multi-byte character;
- non-empty segments of a separated path.
-/

namespace Rs2Runtime.Text

/-- Text: a finite sequence of Unicode scalar values. -/
abbrev Str := List Char

instance : Coe String Str := ⟨String.toList⟩

-- Named, so that membership tests of texts are one term wherever they are elaborated.
instance instLawfulBEqStr : LawfulBEq Str := inferInstance

/-! ## Character classes -/

/-- The Unicode `White_Space` property. -/
def isWhitespace (c : Char) : Bool :=
  let n := c.toNat
  (9 ≤ n && n ≤ 13) || n == 32 || n == 0x85 || n == 0xA0 || n == 0x1680 ||
    (0x2000 ≤ n && n ≤ 0x200A) || n == 0x2028 || n == 0x2029 || n == 0x202F ||
    n == 0x205F || n == 0x3000

/-- The Unicode general category `Cc`. -/
def isControl (c : Char) : Bool :=
  let n := c.toNat
  n < 0x20 || (0x7F ≤ n && n < 0xA0)

/-- Lower-case the ASCII letters and keep every other character. -/
def toAsciiLowercase (s : Str) : Str :=
  s.map Char.toLower

theorem toAsciiLowercase_idem (s : Str) :
    toAsciiLowercase (toAsciiLowercase s) = toAsciiLowercase s := by
  unfold toAsciiLowercase
  rw [List.map_map]
  exact List.map_congr_left fun c _ => Char.toLower_toLower_eq_toLower c

/-! ## Splitting at the first occurrence -/

/-- Split at the first occurrence of `sep`. -/
def splitOnce (sep : Str) : Str → Option (Str × Str)
  | [] => if sep = [] then some ([], []) else none
  | c :: cs =>
    if sep <+: c :: cs then
      some ([], (c :: cs).drop sep.length)
    else
      (splitOnce sep cs).map fun parts => (c :: parts.1, parts.2)

/-- Whether `sep` occurs in `s`. -/
def contains (sep s : Str) : Bool :=
  (splitOnce sep s).isSome

variable {sep s before after : Str} {c : Char}

/-- A split reassembles the text it was taken from. -/
theorem splitOnce_append (split : splitOnce sep s = some (before, after)) :
    s = before ++ sep ++ after := by
  induction s generalizing before with
  | nil =>
    simp only [splitOnce] at split
    split at split
    · simp_all
    · cases split
  | cons c cs ih =>
    simp only [splitOnce] at split
    split at split
    next starts =>
      obtain ⟨rest, rest_eq⟩ := starts
      cases split
      rw [← rest_eq, List.drop_left]
      rfl
    next =>
      obtain ⟨parts, tail_split, parts_eq⟩ := Option.map_eq_some_iff.mp split
      cases parts_eq
      rw [ih tail_split]
      rfl

/-- The separator does not start anywhere inside the part before the split. -/
theorem not_prefix_of_splitOnce (split : splitOnce sep s = some (before, after)) {left right : Str}
    (cut : before = left ++ right) (nonempty : right ≠ []) : ¬ sep <+: right ++ sep ++ after := by
  induction s generalizing before left with
  | nil =>
    simp only [splitOnce] at split
    split at split
    · cases split
      exact absurd (List.append_eq_nil_iff.mp cut.symm).2 nonempty
    · cases split
  | cons c cs ih =>
    have whole := splitOnce_append split
    simp only [splitOnce] at split
    split at split
    next =>
      cases split
      exact absurd (List.append_eq_nil_iff.mp cut.symm).2 nonempty
    next absent =>
      obtain ⟨parts, tail_split, parts_eq⟩ := Option.map_eq_some_iff.mp split
      cases parts_eq
      cases left with
      | nil =>
        simp only [List.nil_append] at cut
        rw [← cut, ← whole]
        exact absent
      | cons head tail =>
        simp only [List.cons_append, List.cons.injEq] at cut
        exact ih tail_split cut.2

/-- Splitting fails exactly when the separator starts at no position. -/
theorem splitOnce_eq_none :
    splitOnce sep s = none ↔ ∀ left right, s = left ++ right → ¬ sep <+: right := by
  induction s with
  | nil =>
    simp only [splitOnce]
    constructor
    · intro failed left right cut starts
      split at failed
      · cases failed
      · simp_all
    · intro absent
      split
      · exact absurd (by simp_all) (absent [] [] rfl)
      · rfl
  | cons c cs ih =>
    simp only [splitOnce]
    constructor
    · intro failed left right cut starts
      split at failed
      next => cases failed
      next absent =>
        cases left with
        | nil => exact absent (by simpa using cut ▸ starts)
        | cons head tail =>
          simp only [List.cons_append, List.cons.injEq] at cut
          exact ih.mp (Option.map_eq_none_iff.mp failed)
            tail right cut.2 starts
    · intro absent
      rw [if_neg (absent [] (c :: cs) rfl), Option.map_eq_none_iff]
      refine ih.mpr fun left right cut => ?_
      exact absent (c :: left) right (by rw [cut]; rfl)

/-- The first occurrence of a single character. -/
theorem splitOnce_char_of_not_mem (absent : c ∉ before) :
    splitOnce [c] (before ++ c :: after) = some (before, after) := by
  induction before with
  | nil => simp [splitOnce]
  | cons head tail ih =>
    simp only [List.mem_cons, not_or] at absent
    have differs : ¬ [c] <+: head :: (tail ++ c :: after) := by
      simp [absent.1]
    simp only [List.cons_append, splitOnce, if_neg differs,
      ih absent.2, Option.map_some]

/-- A character that does not occur cannot be split at. -/
theorem splitOnce_char_eq_none : splitOnce [c] s = none ↔ c ∉ s := by
  rw [splitOnce_eq_none]
  constructor
  · intro absent member
    obtain ⟨left, right, rfl⟩ := List.append_of_mem member
    exact absent left (c :: right) rfl (by simp)
  · rintro absent left right rfl ⟨rest, rest_eq⟩
    exact absent (by simp [← rest_eq])

/-- The part before a single-character split avoids the character. -/
theorem not_mem_of_splitOnce_char (split : splitOnce [c] s = some (before, after)) :
    c ∉ before := by
  intro member
  obtain ⟨left, right, rfl⟩ := List.append_of_mem member
  exact not_prefix_of_splitOnce split rfl (by simp) (by simp)

/-- A character that ends a leading run ends it wherever it stands. -/
theorem takeWhile_append_cons {keep : Char → Bool} (ends : keep c = false) (before after : Str) :
    (before ++ c :: after).takeWhile keep = before.takeWhile keep := by
  induction before with
  | nil => simp [ends]
  | cons head tail ih =>
    rw [List.cons_append, List.takeWhile_cons, List.takeWhile_cons, ih]

/-- Without an ending character the leading run is the whole text. -/
theorem takeWhile_ne_of_not_mem (absent : c ∉ s) : s.takeWhile (· ≠ c) = s := by
  rw [List.takeWhile_eq_self_iff]
  intro d member
  have differs : d ≠ c := fun same => absent (same ▸ member)
  simpa using differs

/-! ## Stripping, trimming and joining -/

/-- Remove a leading `start`, if the text begins with it. -/
def stripStart (start s : Str) : Option Str :=
  if start <+: s then some (s.drop start.length) else none

/-- Remove a trailing `ending`, if the text ends with it. -/
def stripEnd (ending s : Str) : Option Str :=
  if ending <:+ s then some (s.take (s.length - ending.length)) else none

/-- Remove every leading and trailing character that satisfies `drop`. -/
def trimMatches (drop : Char → Bool) (s : Str) : Str :=
  (s.dropWhile drop).rdropWhile drop

/-- Remove leading and trailing white space. -/
def trim (s : Str) : Str :=
  trimMatches isWhitespace s

/-- Concatenate `parts` with `sep` between neighbours. -/
def join (sep : Str) (parts : List Str) : Str :=
  sep.intercalate parts

theorem mem_join {parts : List Str} (member : c ∈ join sep parts) :
    c ∈ sep ∨ ∃ part ∈ parts, c ∈ part := by
  induction parts with
  | nil => cases member
  | cons part parts ih =>
    cases parts with
    | nil =>
      have own : c ∈ part := by simpa [join] using member
      exact .inr ⟨part, List.mem_cons_self, own⟩
    | cons next parts =>
      rw [join, List.intercalate_cons_cons, List.append_assoc] at member
      rcases List.mem_append.mp member with own | later
      · exact .inr ⟨part, List.mem_cons_self, own⟩
      · rcases List.mem_append.mp later with inSep | later
        · exact .inl inSep
        · exact (ih later).imp_right fun ⟨other, among, inside⟩ =>
            ⟨other, List.mem_cons_of_mem _ among, inside⟩

/-- Non-empty runs between white space. -/
def words (s : Str) : List Str :=
  (s.splitOnP isWhitespace).filter (· ≠ [])

/-- No separator occurs in a piece. -/
theorem not_separates_of_mem_splitOnP {separates : Char → Bool} {piece : Str}
    (member : piece ∈ s.splitOnP separates) : ∀ c ∈ piece, separates c = false := by
  induction s generalizing piece with
  | nil =>
    rw [List.splitOnP_nil, List.mem_singleton] at member
    simp [member]
  | cons c rest ih =>
    rw [List.splitOnP_cons_eq_if_modifyHead] at member
    split at member
    · rcases List.mem_cons.mp member with rfl | later
      · simp
      · exact ih later
    next ordinary =>
      cases pieces : rest.splitOnP separates with
      | nil => exact absurd pieces (List.splitOnP_ne_nil _ _)
      | cons first others =>
        rw [pieces] at member ih
        rcases List.mem_cons.mp member with rfl | later
        · have clean := ih List.mem_cons_self
          exact List.forall_mem_cons.mpr ⟨Bool.of_not_eq_true ordinary, clean⟩
        · exact ih (List.mem_cons_of_mem _ later)

/-- Replace occurrences of `old` from left to right, at most `turns` of them. -/
def replaceUpTo (old new : Str) : Nat → Str → Str
  | 0, s => s
  | turns + 1, s =>
    match splitOnce old s with
    | none => s
    | some (before, after) => before ++ new ++ replaceUpTo old new turns after

/-- Replace every occurrence of the non-empty text `old`. -/
def replaceAll (old new s : Str) : Str :=
  replaceUpTo old new s.length s

theorem stripStart_eq_some {start rest : Str} :
    stripStart start s = some rest ↔ s = start ++ rest := by
  unfold stripStart
  constructor
  · intro stripped
    split at stripped
    next starts =>
      obtain ⟨tail, rfl⟩ := starts
      simpa using stripped
    next => cases stripped
  · rintro rfl
    simp

/-! ## Decimal integers -/

/-- The decimal form of a natural number. -/
def natStr (n : Nat) : Str :=
  Nat.toDigits 10 n

/-- The decimal form of an integer. -/
def intStr : Int → Str
  | .ofNat n => natStr n
  | .negSucc n => '-' :: natStr (n + 1)

/-- A non-empty text of decimal digits. -/
def parseDigits (s : Str) : Option Nat :=
  if s ≠ [] ∧ s.all Char.isDigit then some (Nat.ofDigitChars 10 s 0) else none

/-- A signed decimal in the range of a 64-bit integer. -/
def parseI64 (s : Str) : Option Int :=
  match s with
  | '-' :: digits =>
    (parseDigits digits).bind fun n => if n ≤ 2 ^ 63 then some (-(n : Int)) else none
  | '+' :: digits => (parseDigits digits).bind fun n => if n < 2 ^ 63 then some n else none
  | digits => (parseDigits digits).bind fun n => if n < 2 ^ 63 then some n else none

/-- An unsigned decimal in the range of a 64-bit integer. -/
def parseU64 (s : Str) : Option Nat :=
  match s with
  | '+' :: digits => (parseDigits digits).bind fun n => if n < 2 ^ 64 then some n else none
  | digits => (parseDigits digits).bind fun n => if n < 2 ^ 64 then some n else none

theorem isDigit_of_mem_natStr {n : Nat} (member : c ∈ natStr n) : c.isDigit = true :=
  Nat.isDigit_of_mem_toDigits (by decide) (by decide) member

theorem isDigit_or_sign_of_mem_intStr {n : Int} (member : c ∈ intStr n) :
    c.isDigit = true ∨ c = '-' := by
  cases n with
  | ofNat n => exact .inl (isDigit_of_mem_natStr member)
  | negSucc n =>
    rcases List.mem_cons.mp member with sign | digit
    · exact .inr sign
    · exact .inl (isDigit_of_mem_natStr digit)

theorem natStr_injective : Function.Injective natStr := by
  intro left right same
  have read := congrArg (fun digits => Nat.ofDigitChars 10 digits 0) same
  simpa [natStr, Nat.ofDigitChars_toDigits] using read

theorem bounds_of_isDigit (digit : c.isDigit = true) : 48 ≤ c.toNat ∧ c.toNat ≤ 57 := by
  simp only [Char.isDigit, Bool.and_eq_true, decide_eq_true_eq, UInt32.le_iff_toNat_le,
    ge_iff_le] at digit
  exact digit

theorem isWhitespace_of_isDigit (digit : c.isDigit = true) : isWhitespace c = false := by
  have range := bounds_of_isDigit digit
  simp only [isWhitespace, Bool.or_eq_false_iff, Bool.and_eq_false_iff, decide_eq_false_iff_not,
    beq_eq_false_iff_ne]
  omega

/-- A text is left as it is exactly if neither of its ends is to be dropped. -/
theorem trimMatches_eq_self_iff (drop : Char → Bool) (s : Str) :
    trimMatches drop s = s ↔
      (∀ c, s.head? = some c → drop c = false) ∧ ∀ c, s.getLast? = some c → drop c = false := by
  cases s with
  | nil => exact iff_of_true rfl ⟨nofun, nofun⟩
  | cons first rest =>
    unfold trimMatches
    by_cases dropped : drop first = true
    · -- A text whose first character goes gets shorter.
      rw [List.dropWhile_cons_of_pos dropped]
      refine iff_of_false (fun same => ?_) fun kept => ?_
      · have shorter := ((List.rdropWhile_prefix drop (rest.dropWhile drop)).length_le).trans
          (List.dropWhile_suffix drop).length_le
        rw [same, List.length_cons] at shorter
        omega
      · rw [kept.1 first rfl] at dropped
        cases dropped
    · rw [List.dropWhile_cons_of_neg dropped, List.rdropWhile_eq_self_iff]
      rw [Bool.not_eq_true] at dropped
      constructor
      · intro kept
        refine ⟨fun c isFirst => ?_, fun c isLast => ?_⟩
        · cases isFirst
          exact dropped
        · have last := kept (List.cons_ne_nil first rest)
          rw [List.getLast?_eq_some_getLast (List.cons_ne_nil first rest)] at isLast
          cases isLast
          exact Bool.of_not_eq_true last
      · rintro ⟨-, kept⟩ nonempty
        rw [kept _ (List.getLast?_eq_some_getLast nonempty)]
        nofun

/-- A text without white space is not trimmed. -/
theorem trim_eq_self (kept : ∀ c ∈ s, isWhitespace c = false) : trim s = s := by
  apply (trimMatches_eq_self_iff isWhitespace s).mpr
  constructor
  · intro c first
    exact kept c (List.mem_of_head? first)
  · intro c last
    exact kept c (List.mem_of_getLast? last)

theorem trim_intStr (n : Int) : trim (intStr n) = intStr n := by
  apply trim_eq_self
  intro c member
  rcases isDigit_or_sign_of_mem_intStr member with digit | sign
  · exact isWhitespace_of_isDigit digit
  · rw [sign]
    decide

theorem natStr_ne_nil (n : Nat) : natStr n ≠ [] :=
  Nat.toDigits_ne_nil

theorem parseDigits_natStr (n : Nat) : parseDigits (natStr n) = some n := by
  have digits : (natStr n).all Char.isDigit = true :=
    List.all_eq_true.mpr fun c member => isDigit_of_mem_natStr member
  have value : Nat.ofDigitChars 10 (natStr n) 0 = n := by
    rw [natStr, Nat.ofDigitChars_toDigits (by decide) (by decide)]
  rw [parseDigits, if_pos ⟨natStr_ne_nil n, digits⟩, value]

/-- An integer in the range is read back from its decimal form. -/
theorem parseI64_intStr {n : Int} (low : -2 ^ 63 ≤ n) (high : n < 2 ^ 63) :
    parseI64 (intStr n) = some n := by
  cases n with
  | ofNat n =>
    -- The first character is a digit, so neither sign is read.
    have unsigned : parseI64 (natStr n) =
        (parseDigits (natStr n)).bind fun n => if n < 2 ^ 63 then some (n : Int) else none := by
      unfold parseI64
      split
      · rename_i digits isText
        have digit := @isDigit_of_mem_natStr '-' n (isText ▸ List.mem_cons_self)
        cases digit
      · rename_i digits isText
        have digit := @isDigit_of_mem_natStr '+' n (isText ▸ List.mem_cons_self)
        cases digit
      · rfl
    have fits : n < 2 ^ 63 := by
      rw [Int.ofNat_eq_natCast] at high
      omega
    rw [intStr, unsigned, parseDigits_natStr, Option.bind_some, if_pos fits]
    rfl
  | negSucc n =>
    have fits : n + 1 ≤ 2 ^ 63 := by omega
    rw [intStr, parseI64, parseDigits_natStr, Option.bind_some, if_pos fits]
    rfl

/-! ## Byte-indexed slicing -/

/-- Length of the UTF-8 encoding. -/
def utf8Len (s : Str) : Nat :=
  (s.map Char.utf8Size).sum

/-- The leading slice whose UTF-8 encoding has exactly `length` octets; none when that
index falls inside a character or past the end. -/
def sliceTo : Str → Nat → Option Str
  | _, 0 => some []
  | [], _ + 1 => none
  | c :: cs, length + 1 =>
    if c.utf8Size ≤ length + 1 then
      (sliceTo cs (length + 1 - c.utf8Size)).map (c :: ·)
    else
      none

theorem sliceTo_zero (s : Str) : sliceTo s 0 = some [] := by
  cases s <;> rfl

/-- A slice is a leading part of the text with the requested encoded length. -/
theorem sliceTo_eq_some {slice : Str} {length : Nat} :
    sliceTo s length = some slice ↔ slice <+: s ∧ utf8Len slice = length := by
  induction s generalizing length slice with
  | nil =>
    cases length with
    | zero =>
      rw [sliceTo_zero]
      constructor
      · rintro ⟨⟩
        exact ⟨List.prefix_refl _, rfl⟩
      · rintro ⟨starts, -⟩
        rw [List.prefix_nil.mp starts]
    | succ length =>
      simp only [sliceTo, reduceCtorEq, List.prefix_nil, false_iff, not_and]
      rintro rfl
      simp [utf8Len]
  | cons c cs ih =>
    have positive := c.utf8Size_pos
    cases length with
    | zero =>
      rw [sliceTo_zero]
      constructor
      · rintro ⟨⟩
        exact ⟨by simp, rfl⟩
      · rintro ⟨-, measured⟩
        cases slice with
        | nil => rfl
        | cons d ds =>
          have := d.utf8Size_pos
          simp [utf8Len] at measured
          omega
    | succ length =>
      simp only [sliceTo]
      cases slice with
      | nil => simp [utf8Len]
      | cons d ds =>
        split
        next fits =>
          simp only [Option.map_eq_some_iff, List.cons.injEq, exists_eq_right_right,
            ih, List.cons_prefix_cons, utf8Len, List.map_cons,
            List.sum_cons]
          constructor
          · rintro ⟨⟨starts, measured⟩, rfl⟩
            exact ⟨⟨rfl, starts⟩, by omega⟩
          · rintro ⟨⟨rfl, starts⟩, measured⟩
            exact ⟨⟨starts, by omega⟩, rfl⟩
        next tooWide =>
          simp only [reduceCtorEq, List.cons_prefix_cons, utf8Len, List.map_cons,
            List.sum_cons, false_iff, not_and, and_imp]
          rintro rfl - measured
          omega

/-! ## Segments -/

/-- The non-empty pieces between separators. -/
def segments (s : Str) : List Str :=
  (s.splitOn '/').filter (· ≠ [])

@[simp]
theorem segments_nil : segments [] = [] := by
  simp [segments]

/-- A separator cuts the segment list in two. -/
@[simp]
theorem segments_append_slash (left right : Str) :
    segments (left ++ '/' :: right) = segments left ++ segments right := by
  simp [segments, List.splitOn_append_cons_self]

@[simp]
theorem segments_slash_cons (s : Str) : segments ('/' :: s) = segments s := by
  simpa using segments_append_slash [] s

/-- Text without a separator is one segment, or none when it is empty. -/
theorem segments_of_not_mem (absent : '/' ∉ s) : segments s = if s = [] then [] else [s] := by
  unfold segments
  rw [List.splitOn_eq_singleton absent]
  by_cases empty : s = [] <;> simp [empty]

@[simp]
theorem segments_append_slashes (s : Str) (count : Nat) :
    segments (s ++ List.replicate count '/') = segments s := by
  induction count with
  | zero => simp
  | succ count ih =>
    have shape :
        s ++ List.replicate (count + 1) '/' = (s ++ List.replicate count '/') ++ '/' :: [] := by
      rw [List.replicate_succ', List.append_assoc]
    rw [shape, segments_append_slash, ih]
    simp

/-- Text that does not start with a separator begins with its leading run as a segment. -/
theorem segments_eq_takeWhile_cons (ordinary : c ≠ '/') (s : Str) :
    segments (c :: s) =
      (c :: s.takeWhile (· ≠ '/')) :: segments (s.dropWhile (· ≠ '/')) := by
  have run : (c :: s).takeWhile (· ≠ '/') = c :: s.takeWhile (· ≠ '/') := by
    simp [ordinary]
  have whole :
      c :: s = (c :: s.takeWhile (· ≠ '/')) ++ s.dropWhile (· ≠ '/') := by
    rw [List.cons_append, List.takeWhile_append_dropWhile]
  have absent : '/' ∉ c :: s.takeWhile (· ≠ '/') := by
    intro member
    rw [← run] at member
    simpa using List.mem_takeWhile_imp member
  have headed : ∀ d, (s.dropWhile (· ≠ '/')).head? = some d → d = '/' := by
    intro d first
    have fails := List.head?_dropWhile_not (· ≠ '/') s
    rw [first] at fails
    simpa using fails
  conv_lhs => rw [whole]
  cases rest : s.dropWhile (· ≠ '/') with
  | nil =>
    rw [List.append_nil, segments_of_not_mem absent]
    simp
  | cons d ds =>
    have slash : d = '/' := headed d (by rw [rest]; rfl)
    rw [slash, segments_append_slash, segments_of_not_mem absent, segments_slash_cons]
    simp

/-- Text without segments is all separators. -/
theorem eq_slash_of_segments_eq_nil (none_ : segments s = []) : ∀ c ∈ s, c = '/' := by
  induction s with
  | nil => simp
  | cons c rest ih =>
    by_cases slash : c = '/'
    · subst slash
      rw [segments_slash_cons] at none_
      simpa using ih none_
    · rw [segments_eq_takeWhile_cons slash] at none_
      cases none_

theorem segments_dropSlashes (s : Str) :
    segments (s.dropWhile (· = '/')) = segments s := by
  induction s with
  | nil => rfl
  | cons c rest ih =>
    by_cases slash : c = '/'
    · rw [slash, List.dropWhile_cons_of_pos (by simp), segments_slash_cons, ih]
    · rw [List.dropWhile_cons_of_neg (by simpa using slash)]

theorem segments_rdropSlashes (s : Str) :
    segments (s.rdropWhile (· = '/')) = segments s := by
  induction s using List.reverseRecOn with
  | nil => rfl
  | append_singleton front c ih =>
    by_cases slash : c = '/'
    · rw [slash, List.rdropWhile_concat_pos _ _ _ (by simp), ih]
      simp
    · rw [List.rdropWhile_concat_neg _ _ _ (by simpa using slash)]

theorem segments_trimSlashes (s : Str) :
    segments (trimMatches (· = '/') s) = segments s := by
  unfold trimMatches
  rw [segments_rdropSlashes, segments_dropSlashes]

/-- The separator occurs in no piece. -/
theorem not_mem_of_mem_splitOn {sep : Char} {piece : Str} (member : piece ∈ s.splitOn sep) :
    sep ∉ piece := by
  intro inside
  rw [List.splitOn_eq_splitOnP] at member
  have kept := not_separates_of_mem_splitOnP member sep inside
  simp at kept

/-- A segment is its own only segment. -/
theorem segments_of_mem_segments {segment : Str} (member : segment ∈ segments s) :
    segments segment = [segment] := by
  obtain ⟨piece, nonempty⟩ := List.mem_filter.mp member
  rw [segments_of_not_mem (not_mem_of_mem_splitOn piece), if_neg (by simpa using nonempty)]

/-- A separator that occurs has a last occurrence. -/
theorem exists_last_slash (member : '/' ∈ s) :
    ∃ before after, s = before ++ '/' :: after ∧ '/' ∉ after := by
  have reversed : '/' ∈ s.reverse := List.mem_reverse.mpr member
  obtain ⟨front, back, cut, absent⟩ := List.eq_append_cons_of_mem reversed
  refine ⟨back.reverse, front.reverse, ?_, by simpa using absent⟩
  have restored := congrArg List.reverse cut
  simpa using restored

/-- Text appended to an unfinished segment changes that segment. -/
theorem not_segments_prefix_append {body : Str} {last : Char} (ends : body.getLast? = some last)
    (unfinished : last ≠ '/') (ordinary : c ≠ '/') (rest : Str) :
    ¬ segments body <+: segments (body ++ c :: rest) := by
  have unfinishedSegment :
      ∀ tail : Str, '/' ∉ tail → tail.getLast? = some last →
        ¬ segments tail <+: segments (tail ++ c :: rest) := by
    intro tail absent ended extends_
    cases tail with
    | nil => cases ended
    | cons d ds =>
      have parts : '/' ≠ d ∧ '/' ∉ ds := by
        simpa using absent
      have ordinaryHead : d ≠ '/' := Ne.symm parts.1
      have run : (ds ++ c :: rest).takeWhile (· ≠ '/') =
          ds ++ (c :: rest).takeWhile (· ≠ '/') := by
        apply List.takeWhile_append_of_pos
        intro e inside
        have differs : e ≠ '/' := fun same => parts.2 (same ▸ inside)
        simpa using differs
      rw [segments_of_not_mem absent, List.cons_append,
        segments_eq_takeWhile_cons ordinaryHead, run] at extends_
      simp [ordinary] at extends_
  by_cases separated : '/' ∈ body
  · obtain ⟨before, after, rfl, absent⟩ := exists_last_slash separated
    rw [List.append_assoc, List.cons_append, segments_append_slash, segments_append_slash,
      List.prefix_append_right_inj]
    apply unfinishedSegment after absent
    cases after with
    | nil =>
      have slashLast : last = '/' := by
        simpa using ends.symm
      exact absurd slashLast unfinished
    | cons d ds => simpa [List.getLast?_append] using ends
  · exact unfinishedSegment body separated ends

end Rs2Runtime.Text
