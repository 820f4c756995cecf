import Rs2Runtime.Text.Basic

/-!
Contract: texts with named holes, and replacement of a hole's written form.

Owns:
- the parts of a text between the occurrences of a separator, and replacement as their
  concatenation around another text;
- the pieces of a template, its holes and the filling of holes;
- when replacing a hole's written form replaces exactly the holes of that name.
-/

namespace Rs2Runtime.Text

/-! ## Parts between occurrences -/

def partsUpTo (sep : Str) : Nat → Str → List Str
  | 0, s => [s]
  | turns + 1, s =>
    match splitOnce sep s with
    | none => [s]
    | some (before, after) => before :: partsUpTo sep turns after

/-- The parts between the occurrences of `sep`, found from left to right. -/
def parts (sep s : Str) : List Str :=
  partsUpTo sep s.length s

theorem partsUpTo_ne_nil (sep : Str) (turns : Nat) (s : Str) : partsUpTo sep turns s ≠ [] := by
  cases turns with
  | zero => exact List.cons_ne_nil _ _
  | succ turns =>
    unfold partsUpTo
    split <;> exact List.cons_ne_nil _ _

theorem intercalate_cons (sep first : Str) {rest : List Str} (more : rest ≠ []) :
    sep.intercalate (first :: rest) = first ++ sep ++ sep.intercalate rest := by
  obtain ⟨second, later, rfl⟩ := List.exists_cons_of_ne_nil more
  simp [List.intercalate]

/-- Replacement puts the new text between the parts. -/
theorem replaceAll_eq_intercalate (old new s : Str) :
    replaceAll old new s = new.intercalate (parts old s) := by
  unfold replaceAll parts
  generalize s.length = turns
  induction turns generalizing s with
  | zero => simp [replaceUpTo, partsUpTo, List.intercalate]
  | succ turns ih =>
    unfold replaceUpTo partsUpTo
    cases splitOnce old s with
    | none => simp [List.intercalate]
    | some found =>
      dsimp only
      rw [intercalate_cons new found.1 (partsUpTo_ne_nil old turns found.2),
        ih]

/-- A separator does not occur in the part before its first occurrence. -/
theorem splitOnce_before {sep s before after : Str} (nonempty : sep ≠ [])
    (split : splitOnce sep s = some (before, after)) : splitOnce sep before = none := by
  rw [splitOnce_eq_none]
  intro left right cut starts
  have inside : right ≠ [] := by
    rintro rfl
    exact nonempty (List.prefix_nil.mp starts)
  apply not_prefix_of_splitOnce split cut inside
  rw [List.append_assoc]
  exact List.prefix_append_of_prefix starts

/-- The separator occurs in none of the parts. -/
theorem splitOnce_of_mem_parts {sep s part : Str} (nonempty : sep ≠ [])
    (member : part ∈ parts sep s) : splitOnce sep part = none := by
  have enough : ∀ turns (s : Str), s.length ≤ turns →
      ∀ part ∈ partsUpTo sep turns s, splitOnce sep part = none := by
    intro turns
    induction turns with
    | zero =>
      intro s short part member
      rw [List.mem_singleton.mp member, List.eq_nil_of_length_eq_zero (Nat.le_zero.mp short)]
      simp [splitOnce, nonempty]
    | succ turns ih =>
      intro s short part member
      unfold partsUpTo at member
      split at member
      next absent =>
        rw [List.mem_singleton.mp member]
        exact absent
      next before after split =>
        rcases List.mem_cons.mp member with rfl | later
        · exact splitOnce_before nonempty split
        · have whole := congrArg List.length (splitOnce_append split)
          have sepLength := List.length_pos_iff.mpr nonempty
          rw [List.length_append, List.length_append] at whole
          exact ih after (by omega) part later
  exact enough s.length s (Nat.le_refl _) part member

/-! ## Written holes -/

/-- A character that is neither brace. -/
def notBrace (c : Char) : Bool :=
  c ≠ '\x7b' && c ≠ '\x7d'

/-- The written form of a hole. -/
def braced (name : Str) : Str :=
  '\x7b' :: name ++ ['\x7d']

theorem braced_ne_nil (name : Str) : braced name ≠ [] :=
  List.cons_ne_nil _ _

theorem brace_not_mem_tail {name : Str} (plain : name.all notBrace = true) :
    '\x7b' ∉ name ++ ['\x7d'] := by
  intro member
  rcases List.mem_append.mp member with inName | last
  · have ordinary := List.all_eq_true.mp plain _ inName
    exact absurd ordinary (by decide)
  · exact absurd (List.mem_singleton.mp last) (by decide)

/-- A text in which a hole's written form does not occur runs up to the next one. -/
theorem splitOnce_braced {name before : Str} (plain : name.all notBrace = true)
    (absent : splitOnce (braced name) before = none) (after : Str) :
    splitOnce (braced name) (before ++ braced name ++ after) = some (before, after) := by
  induction before with
  | nil =>
    have starts : braced name <+: braced name ++ after := List.prefix_append _ _
    have shape : [] ++ braced name ++ after = '\x7b' :: (name ++ ['\x7d'] ++ after) := by
      simp [braced]
    rw [shape, splitOnce, if_pos (by rw [← shape]; exact starts), ← shape]
    simp
  | cons c before ih =>
    have whole := splitOnce_eq_none.mp absent
    have tailAbsent : splitOnce (braced name) before = none := by
      rw [splitOnce_eq_none]
      intro left right cut
      exact whole (c :: left) right (by rw [cut]; rfl)
    have notHere : ¬ braced name <+: c :: (before ++ braced name ++ after) := by
      intro starts
      rw [List.append_assoc, ← List.cons_append] at starts
      rcases List.prefix_or_prefix_of_prefix starts (List.prefix_append _ _) with
        inside | ⟨rest, reaches⟩
      · exact whole [] (c :: before) rfl inside
      · -- the occurrence reaches into the written hole, whose brace is not in the name
        have reached : rest <+: braced name ++ after := by
          refine (List.prefix_append_right_inj (c :: before)).mp ?_
          rw [reaches]
          exact starts
        cases rest with
        | nil =>
          rw [List.append_nil] at reaches
          exact whole [] (c :: before) rfl (reaches ▸ List.prefix_rfl)
        | cons d rest =>
          obtain ⟨more, shown⟩ := reached
          have brace : d = '\x7b' := (List.cons.inj shown).1
          have tails : before ++ d :: rest = name ++ ['\x7d'] := (List.cons.inj reaches).2
          refine brace_not_mem_tail plain ?_
          rw [← tails, ← brace]
          exact List.mem_append_right _ List.mem_cons_self
    rw [List.cons_append, List.cons_append, splitOnce, if_neg notHere,
      ih tailAbsent]
    rfl

/-- Parts in which a hole's written form does not occur are read back from between the written
holes; a single part is for any name. -/
theorem parts_intercalate {name : Str} {texts : List Str} (some_text : texts ≠ [])
    (plain : name.all notBrace = true ∨ texts.length = 1)
    (absent : ∀ text ∈ texts, splitOnce (braced name) text = none) :
    parts (braced name) ((braced name).intercalate texts) = texts := by
  have enough : ∀ turns, ((braced name).intercalate texts).length ≤ turns →
      partsUpTo (braced name) turns ((braced name).intercalate texts) = texts := by
    induction texts with
    | nil => exact (some_text rfl).elim
    | cons first rest ih =>
      intro turns short
      have firstAbsent := absent first List.mem_cons_self
      cases rest with
      | nil =>
        have alone : (braced name).intercalate [first] = first := by simp [List.intercalate]
        rw [alone]
        cases turns with
        | zero => rfl
        | succ turns => rw [partsUpTo, firstAbsent]
      | cons second later =>
        have plainName : name.all notBrace = true := plain.resolve_right (by simp)
        have more : second :: later ≠ [] := List.cons_ne_nil _ _
        rw [intercalate_cons _ _ more] at short ⊢
        simp only [List.length_append] at short
        have sepLength := List.length_pos_iff.mpr (braced_ne_nil name)
        obtain ⟨turns, rfl⟩ : ∃ fewer, turns = fewer + 1 := ⟨turns - 1, by omega⟩
        rw [partsUpTo, splitOnce_braced plainName firstAbsent]
        dsimp only
        rw [ih more (Or.inl plainName)
          (fun text member => absent text (List.mem_cons_of_mem _ member)) turns (by omega)]
  exact enough _ (Nat.le_refl _)

/-! ## Templates -/

/-- A piece of a template: literal text, or a hole. -/
inductive Piece where
  | text (s : Str)
  | hole (name : Str)
  deriving DecidableEq, Repr

/-- The written form of a template. -/
def written : List Piece → Str
  | [] => []
  | .text s :: pieces => s ++ written pieces
  | .hole name :: pieces => braced name ++ written pieces

/-- The names of the holes, in order. -/
def holes : List Piece → List Str
  | [] => []
  | .text _ :: pieces => holes pieces
  | .hole name :: pieces => name :: holes pieces

/-- Fill the holes of one name. -/
def fillHole (name value : Str) : List Piece → List Piece
  | [] => []
  | .text s :: pieces => .text s :: fillHole name value pieces
  | .hole other :: pieces =>
    (if other = name then .text value else .hole other) :: fillHole name value pieces

/-- Fill every hole that has a value by the first one listed for its name. -/
def fillAll (values : List (Str × Str)) : List Piece → List Piece
  | [] => []
  | .text s :: pieces => .text s :: fillAll values pieces
  | .hole name :: pieces =>
    (match values.lookup name with
      | some value => .text value
      | none => .hole name) :: fillAll values pieces

/-- Put a text before the first part. -/
def prependFirst (s : Str) : List Str → List Str
  | [] => [s]
  | first :: rest => (s ++ first) :: rest

/-- The written parts between the holes of a name. -/
def between (name : Str) : List Piece → List Str
  | [] => [[]]
  | .text s :: pieces => prependFirst s (between name pieces)
  | .hole other :: pieces =>
    if other = name then
      [] :: between name pieces
    else
      prependFirst (braced other) (between name pieces)

@[simp]
theorem fillAll_nil (pieces : List Piece) : fillAll [] pieces = pieces := by
  induction pieces with
  | nil => rfl
  | cons piece pieces ih =>
    cases piece <;> simp [fillAll, ih]

/-- Values may be filled in one after another. -/
theorem fillAll_cons (name value : Str) (values : List (Str × Str)) (pieces : List Piece) :
    fillAll ((name, value) :: values) pieces = fillAll values (fillHole name value pieces) := by
  induction pieces with
  | nil => rfl
  | cons piece pieces ih =>
    cases piece with
    | text s => rw [fillAll, fillHole, fillAll, ih]
    | hole other =>
      rw [fillAll, fillHole, ih]
      by_cases same : other = name
      · rw [if_pos same, fillAll, same, List.lookup_cons_self]
      · have differs : (other == name) = false := by simpa using same
        rw [if_neg same, fillAll, List.lookup_cons, differs]

theorem between_ne_nil (name : Str) (pieces : List Piece) : between name pieces ≠ [] := by
  cases pieces with
  | nil => exact List.cons_ne_nil _ _
  | cons piece pieces =>
    cases piece with
    | text s =>
      unfold between prependFirst
      split <;> exact List.cons_ne_nil _ _
    | hole other =>
      unfold between prependFirst
      split
      · exact List.cons_ne_nil _ _
      · split <;> exact List.cons_ne_nil _ _

theorem intercalate_prependFirst (sep s : Str) {texts : List Str} (some_text : texts ≠ []) :
    sep.intercalate (prependFirst s texts) = s ++ sep.intercalate texts := by
  obtain ⟨first, rest, rfl⟩ := List.exists_cons_of_ne_nil some_text
  cases rest with
  | nil => simp [prependFirst, List.intercalate]
  | cons second later =>
    rw [prependFirst, intercalate_cons _ _ (List.cons_ne_nil _ _),
      intercalate_cons _ _ (List.cons_ne_nil _ _)]
    simp only [List.append_assoc]

/-- Filling puts the value between the parts. -/
theorem written_fillHole (name value : Str) (pieces : List Piece) :
    written (fillHole name value pieces) = value.intercalate (between name pieces) := by
  induction pieces with
  | nil => simp [fillHole, written, between, List.intercalate]
  | cons piece pieces ih =>
    have more := between_ne_nil name pieces
    cases piece with
    | text s =>
      rw [fillHole, written, between, intercalate_prependFirst _ _ more, ih]
    | hole other =>
      rw [fillHole, between]
      split
      · rw [written, intercalate_cons _ _ more, ih]
        rfl
      · rw [written, intercalate_prependFirst _ _ more, ih]

/-- The written form of a template has the written holes between the parts. -/
theorem written_eq_intercalate (name : Str) (pieces : List Piece) :
    written pieces = (braced name).intercalate (between name pieces) := by
  induction pieces with
  | nil => simp [written, between, List.intercalate]
  | cons piece pieces ih =>
    have more := between_ne_nil name pieces
    cases piece with
    | text s => rw [written, between, intercalate_prependFirst _ _ more, ih]
    | hole other =>
      rw [written, between]
      split
      next same =>
        rw [same, intercalate_cons _ _ more, ih]
        rfl
      next => rw [intercalate_prependFirst _ _ more, ih]

theorem between_of_not_mem {name : Str} {pieces : List Piece} (absent : name ∉ holes pieces) :
    between name pieces = [written pieces] := by
  induction pieces with
  | nil => rfl
  | cons piece pieces ih =>
    cases piece with
    | text s => rw [between, ih absent, prependFirst, written]
    | hole other =>
      rw [holes, List.mem_cons, not_or] at absent
      rw [between, if_neg (Ne.symm absent.1), ih absent.2, prependFirst, written]

/-- The written form of a hole's name occurs in a template at the holes of that name only. -/
def OnlyHoles (name : Str) (pieces : List Piece) : Prop :=
  ∀ part ∈ between name pieces, splitOnce (braced name) part = none

instance (name : Str) (pieces : List Piece) : Decidable (OnlyHoles name pieces) :=
  inferInstanceAs (Decidable (∀ part ∈ between name pieces, splitOnce (braced name) part = none))

/-- Replacement of the written form finds exactly the holes of a name. -/
theorem parts_written_iff {name : Str} {pieces : List Piece}
    (plain : ∀ hole ∈ holes pieces, hole.all notBrace = true) :
    parts (braced name) (written pieces) = between name pieces ↔ OnlyHoles name pieces := by
  constructor
  · intro same part member
    rw [← same] at member
    exact splitOnce_of_mem_parts (braced_ne_nil name) member
  · intro only
    rw [written_eq_intercalate name pieces]
    refine parts_intercalate (between_ne_nil name pieces) ?_ only
    by_cases member : name ∈ holes pieces
    · exact Or.inl (plain name member)
    · exact Or.inr (by rw [between_of_not_mem member]; rfl)

theorem holes_fillHole_subset {name value hole : Str} {pieces : List Piece}
    (member : hole ∈ holes (fillHole name value pieces)) : hole ∈ holes pieces := by
  induction pieces with
  | nil => exact member
  | cons piece pieces ih =>
    cases piece with
    | text s => exact ih member
    | hole other =>
      rw [fillHole] at member
      rw [holes]
      split at member
      · exact List.mem_cons_of_mem _ (ih member)
      · rcases List.mem_cons.mp member with rfl | later
        · exact List.mem_cons_self
        · exact List.mem_cons_of_mem _ (ih later)

/-! ## Reading a template -/

/-- The name of a hole whose opening brace has been read, and what follows it. -/
def holeName (s : Str) : Option (Str × Str) :=
  match s.dropWhile notBrace with
  | '\x7d' :: rest => some (s.takeWhile notBrace, rest)
  | _ => none

def piecesUpTo : Nat → Str → List Piece
  | 0, s => [.text s]
  | _ + 1, [] => []
  | turns + 1, c :: s =>
    if c = '\x7b' then
      match holeName s with
      | some (name, rest) => .hole name :: piecesUpTo turns rest
      | none => .text [c] :: piecesUpTo turns s
    else
      .text [c] :: piecesUpTo turns s

/-- The pieces of a text: a hole is a name without braces between two braces. -/
def pieces (s : Str) : List Piece :=
  piecesUpTo s.length s

theorem holeName_eq_some {s name rest : Str} (found : holeName s = some (name, rest)) :
    s = name ++ '\x7d' :: rest ∧ name.all notBrace = true := by
  unfold holeName at found
  split at found
  next tail dropped =>
    cases found
    refine ⟨?_, List.all_takeWhile⟩
    rw [← dropped, List.takeWhile_append_dropWhile]
  next => cases found

theorem written_piecesUpTo (turns : Nat) (s : Str) : written (piecesUpTo turns s) = s := by
  induction turns generalizing s with
  | zero => simp [piecesUpTo, written]
  | succ turns ih =>
    cases s with
    | nil => rfl
    | cons c s =>
      unfold piecesUpTo
      split
      next brace =>
        split
        next name rest found =>
          rw [written, ih, (holeName_eq_some found).1, brace, braced]
          simp
        next => rw [written, ih, List.singleton_append]
      next => rw [written, ih, List.singleton_append]

@[simp]
theorem written_pieces (s : Str) : written (pieces s) = s :=
  written_piecesUpTo s.length s

theorem holes_piecesUpTo_plain (turns : Nat) (s : Str) :
    ∀ hole ∈ holes (piecesUpTo turns s), hole.all notBrace = true := by
  induction turns generalizing s with
  | zero => exact fun _ member => (List.not_mem_nil member).elim
  | succ turns ih =>
    cases s with
    | nil => exact fun _ member => (List.not_mem_nil member).elim
    | cons c s =>
      unfold piecesUpTo
      split
      · split
        next name rest found =>
          intro hole member
          rcases List.mem_cons.mp member with rfl | later
          · exact (holeName_eq_some found).2
          · exact ih rest hole later
        next => exact ih s
      · exact ih s

theorem holes_pieces_plain (s : Str) : ∀ hole ∈ holes (pieces s), hole.all notBrace = true :=
  holes_piecesUpTo_plain s.length s

end Rs2Runtime.Text
