import Rs2Runtime.Data.OrderedMap
import Rs2Runtime.Data.Outcome
import Rs2Runtime.Json.Double
import Rs2Runtime.Text.Utf8

/-!
Contract: the parameters of derived images.

Owns:
- the limits of a mount, and the parameters that its query texts are read as;
- the canonical text of parameters, which determines them.

Does not own: the arithmetic and the texts of single-precision numbers, which are a parameter.
-/

namespace Rs2Runtime.Guest.Image

open Text Data Json

/-! ## Limits of a mount -/

structure Config where
  maxWidth : Nat
  maxHeight : Nat
  maxSourcePixels : Nat
  defaultQuality : Nat
  /-- Widths that are given out, in increasing order; with none, every width is. -/
  widths : List Nat

def Config.default : Config where
  maxWidth := 4096
  maxHeight := 4096
  maxSourcePixels := 16000000
  defaultQuality := 78
  widths := []

def positive : Value → Option Nat
  | .num number => number.asU64.filter (0 < ·)
  | _ => none

def uint (config : Value) (key : Str) : Except Str (Option Nat) :=
  match config.get? key with
  | none => .ok none
  | some value =>
    match positive value with
    | some n => .ok (some n)
    | none => .error (("config '" : Str) ++ key ++ ("' must be a positive integer" : Str))

def widthsProblem : Str := "config 'widths' must be an array of positive integers"

/-- The ladder of widths, sorted and without repetitions. -/
def readWidths (config : Value) : Except Str (List Nat) :=
  match config.get? "widths" with
  | none => .ok []
  | some value =>
    match value.asArray with
    | none => .error widthsProblem
    | some items =>
      match items.mapM positive with
      | none => .error widthsProblem
      | some widths => .ok ((widths.map (· % 2 ^ 32)).insertionSort (· ≤ ·)).dedup

/-- The limits in the configuration of a mount.  Sizes are cut to 32 bits. -/
def Config.fromJson (config : Value) : Except Str Config := do
  let maxWidth ← uint config "maxWidth"
  let maxHeight ← uint config "maxHeight"
  let maxSourcePixels ← uint config "maxSourcePixels"
  let defaultQuality ← uint config "defaultQuality"
  let _ ← Outcome.require (defaultQuality.all (· ≤ 100))
    ("config 'defaultQuality' must be 1..=100" : Str)
  let widths ← readWidths config
  return {
    maxWidth := (maxWidth.map (· % 2 ^ 32)).getD Config.default.maxWidth
    maxHeight := (maxHeight.map (· % 2 ^ 32)).getD Config.default.maxHeight
    maxSourcePixels := maxSourcePixels.getD Config.default.maxSourcePixels
    defaultQuality := defaultQuality.getD Config.default.defaultQuality
    widths := widths }

/-! ## Parameters -/

inductive Fit where
  | scaleDown
  | contain
  | cover
  | fill
  deriving DecidableEq, Repr

def Fit.name : Fit → Str
  | .scaleDown => "scale-down"
  | .contain => "contain"
  | .cover => "cover"
  | .fill => "fill"

inductive Format where
  | auto
  | jpeg
  | png
  | webp
  deriving DecidableEq, Repr

/-- The single-precision numbers of the parameters. -/
structure Floats where
  /-- Pixel ratios, at least one and at most three. -/
  Ratio : Type
  one : Ratio
  /-- A finite positive number, brought into the range. -/
  readRatio : Str → Option Ratio
  /-- A size times a ratio, rounded to an unsigned 32-bit integer. -/
  scaled : Ratio → Nat → Nat
  /-- Numbers from zero to one. -/
  Fraction : Type
  decides : DecidableEq Fraction
  zero : Fraction
  half : Fraction
  whole : Fraction
  readFraction : Str → Option Fraction
  text : Fraction → Str
  text_injective : Function.Injective text
  text_plain : ∀ fraction, ',' ∉ text fraction ∧ '&' ∉ text fraction

/-- Numbers of which there is only one. -/
def plainFloats : Floats where
  Ratio := Unit
  one := ()
  readRatio := fun _ => some ()
  scaled := fun _ size => size
  Fraction := Unit
  decides := inferInstance
  zero := ()
  half := ()
  whole := ()
  readFraction := fun _ => some ()
  text := fun _ => []
  text_injective := fun _ _ _ => rfl
  text_plain := by simp

variable {floats : Floats}

instance : DecidableEq floats.Fraction :=
  floats.decides

structure Gravity (floats : Floats) where
  x : floats.Fraction
  y : floats.Fraction
  deriving DecidableEq

def center (floats : Floats) : Gravity floats :=
  ⟨floats.half, floats.half⟩

structure Rect where
  x : Nat
  y : Nat
  w : Nat
  h : Nat
  deriving DecidableEq, Repr

/-- What pixels are made from: the parameters without the requested format. -/
structure Shape (floats : Floats) where
  w : Option Nat
  h : Option Nat
  fit : Fit
  g : Gravity floats
  rect : Option Rect
  quality : Nat

structure Params (floats : Floats) extends Shape floats where
  format : Format

/-! ## Reading -/

def readU32 (s : Str) : Option Nat :=
  (parseU64 s).filter (· < 2 ^ 32)

def parseU32 (key value : Str) : Except Str Nat :=
  match (readU32 value).filter (0 < ·) with
  | some n => .ok n
  | none =>
    .error (("'" : Str) ++ key ++ ("' must be a positive integer, got '" : Str) ++ value ++
      ("'" : Str))

def readFit (value : Str) : Except Str Fit :=
  if value = "scale-down" then .ok .scaleDown
  else if value = "contain" then .ok .contain
  else if value = "cover" then .ok .cover
  else if value = "fill" then .ok .fill
  else .error (("unknown fit '" : Str) ++ value ++ ("'" : Str))

def gravityProblem (value : Str) : Str :=
  ("'g' must be a compass point or 'x,y' fractions in 0..=1, got '" : Str) ++ value ++ ("'" : Str)

/-- The compass points. -/
def compass (floats : Floats) : List (Str × Gravity floats) :=
  [("center", center floats), ("c", center floats), ("n", ⟨floats.half, floats.zero⟩),
    ("ne", ⟨floats.whole, floats.zero⟩), ("e", ⟨floats.whole, floats.half⟩),
    ("se", ⟨floats.whole, floats.whole⟩), ("s", ⟨floats.half, floats.whole⟩),
    ("sw", ⟨floats.zero, floats.whole⟩), ("w", ⟨floats.zero, floats.half⟩),
    ("nw", ⟨floats.zero, floats.zero⟩)]

def readGravity (floats : Floats) (value : Str) : Except Str (Gravity floats) :=
  match OrderedMap.get? (compass floats) value with
  | some gravity => .ok gravity
  | none =>
    match splitOnce [','] value with
    | none => .error (gravityProblem value)
    | some (xs, ys) =>
      match floats.readFraction xs, floats.readFraction ys with
      | some x, some y => .ok ⟨x, y⟩
      | _, _ => .error (gravityProblem value)

def rectProblem (value : Str) : Str :=
  ("'rect' must be 'x,y,w,h', got '" : Str) ++ value ++ ("'" : Str)

def readRect (value : Str) : Except Str Rect :=
  match value.splitOn ',' with
  | [x, y, w, h] =>
    match readU32 x, readU32 y with
    | some x, some y => do
      let w ← parseU32 "rect" w
      let h ← parseU32 "rect" h
      return ⟨x, y, w, h⟩
    | _, _ => .error (rectProblem value)
  | _ => .error (rectProblem value)

def readFormat (value : Str) : Except Str Format :=
  if value = "auto" then .ok .auto
  else if value = "jpeg" ∨ value = "jpg" then .ok .jpeg
  else if value = "png" then .ok .png
  else if value = "webp" then .ok .webp
  else .error (("unknown format '" : Str) ++ value ++ ("'" : Str))

def readQuality (value : Str) : Except Str Nat :=
  match (parseU64 value).filter fun q => 1 ≤ q ∧ q ≤ 100 with
  | some q => .ok q
  | none => .error (("'q' must be 1..=100, got '" : Str) ++ value ++ ("'" : Str))

def readDpr (floats : Floats) (value : Str) : Except Str floats.Ratio :=
  match floats.readRatio value with
  | some ratio => .ok ratio
  | none => .error (("'dpr' must be a positive number, got '" : Str) ++ value ++ ("'" : Str))

/-- What one pair of a query sets. -/
inductive Setting (floats : Floats) where
  | w (size : Nat)
  | h (size : Nat)
  | dpr (ratio : floats.Ratio)
  | fit (fit : Fit)
  | g (gravity : Gravity floats)
  | rect (rect : Rect)
  | format (format : Format)
  | quality (quality : Nat)

def readSetting (floats : Floats) (key value : Str) : Except Str (Setting floats) :=
  if key = "w" then (parseU32 "w" value).map .w
  else if key = "h" then (parseU32 "h" value).map .h
  else if key = "dpr" then (readDpr floats value).map .dpr
  else if key = "fit" then (readFit value).map .fit
  else if key = "g" then (readGravity floats value).map .g
  else if key = "rect" then (readRect value).map .rect
  else if key = "f" ∨ key = "format" then (readFormat value).map .format
  else if key = "q" then (readQuality value).map .quality
  else .error (("unknown parameter '" : Str) ++ key ++ ("'" : Str))

/-- The key and the value of a pair. -/
def cutPair (pair : Str) : Str × Str :=
  (splitOnce ['='] pair).getD (pair, [])

def readPair (floats : Floats) (pair : Str) : Except Str (Setting floats) :=
  readSetting floats (cutPair pair).1 (percentDecode (cutPair pair).2)

/-- What the pairs of a query have set. -/
structure Given (floats : Floats) where
  w : Option Nat
  h : Option Nat
  dpr : Option floats.Ratio
  fit : Option Fit
  g : Option (Gravity floats)
  rect : Option Rect
  format : Option Format
  quality : Option Nat

def Given.nothing (floats : Floats) : Given floats :=
  ⟨none, none, none, none, none, none, none, none⟩

def Given.set (given : Given floats) : Setting floats → Given floats
  | .w size => { given with w := some size }
  | .h size => { given with h := some size }
  | .dpr ratio => { given with dpr := some ratio }
  | .fit fit => { given with fit := some fit }
  | .g gravity => { given with g := some gravity }
  | .rect rect => { given with rect := some rect }
  | .format format => { given with format := some format }
  | .quality quality => { given with quality := some quality }

/-- A width on the ladder: the first that is large enough, or the last. -/
def snap (config : Config) (width : Nat) : Nat :=
  match config.widths.getLast? with
  | none => width
  | some last => min ((config.widths.find? (width ≤ ·)).getD last) config.maxWidth

/-- The parameters: sizes scaled and cut to the limits, the rest with its defaults. -/
def Given.params (config : Config) (given : Given floats) : Except Str (Params floats) :=
  let scale (size : Nat) := max (floats.scaled (given.dpr.getD floats.one) size) 1
  let w := given.w.map fun size => min (scale size) config.maxWidth
  let h := given.h.map fun size => min (scale size) config.maxHeight
  let fit := given.fit.getD .scaleDown
  if (fit = .cover ∨ fit = .fill) ∧ (w = none ∨ h = none) then
    .error (("fit=" : Str) ++ fit.name ++ (" requires both 'w' and 'h'" : Str))
  else if (fit = .contain ∨ fit = .scaleDown) ∧ w = none ∧ h = none ∧ given.rect = none then
    .error "resizing requires 'w' or 'h' (or a 'rect' crop)"
  else
    .ok {
      w := if h = none then w.map (snap config) else w
      h := h
      fit := fit
      g := given.g.getD (center floats)
      rect := given.rect
      quality := given.quality.getD config.defaultQuality
      format := given.format.getD .auto }

/-- The pairs of a query. -/
def pairsOf (query : Str) : List Str :=
  (query.splitOn '&').filter (· ≠ [])

/-- Parameters of a query; none for one without pairs. -/
def parse (floats : Floats) (config : Config) (query : Str) :
    Except Str (Option (Params floats)) :=
  ((pairsOf query).mapM (readPair floats)).bind fun settings =>
    if pairsOf query = [] then .ok none
    else ((settings.foldl Given.set (Given.nothing floats)).params config).map some

/-! ## Canonical texts -/

/-- The format that pixels are encoded in. -/
def resolveFormat (format : Format) (sourceType : Str) : Format :=
  match format with
  | .auto =>
    if sourceType = "image/png" ∨ sourceType = "image/gif" ∨ sourceType = "image/webp" then .png
    else .jpeg
  | other => other

def Format.mediaType : Format → Str
  | .png => "image/png"
  | .webp => "image/webp"
  | .auto | .jpeg => "image/jpeg"

def Format.extension : Format → Str
  | .png => "png"
  | .webp => "webp"
  | .auto | .jpeg => "jpg"

def Format.name : Format → Str
  | .auto => "auto"
  | .jpeg => "jpeg"
  | .png => "png"
  | .webp => "webp"

def Rect.text (rect : Rect) : Str :=
  join "," [natStr rect.x, natStr rect.y, natStr rect.w, natStr rect.h]

def Gravity.text (gravity : Gravity floats) : Str :=
  floats.text gravity.x ++ ',' :: floats.text gravity.y

/-- Keys in their order, with a value where it is not the default. -/
def canonicalFields (shape : Shape floats) (resolved : Format) : List (Str × Option Str) :=
  [("w", shape.w.map natStr), ("h", shape.h.map natStr),
    ("fit", if shape.fit = .scaleDown then none else some shape.fit.name),
    ("g", if shape.g = center floats then none else some shape.g.text),
    ("rect", shape.rect.map Rect.text), ("q", some (natStr shape.quality)),
    ("f", some resolved.name)]

/-- The fields that have a value. -/
def present (fields : List (Str × Option Str)) : List (Str × Str) :=
  fields.filterMap fun field => field.2.map fun value => (field.1, value)

def canonical (shape : Shape floats) (resolved : Format) : Str :=
  join "&" ((present (canonicalFields shape resolved)).map fun pair => pair.1 ++ '=' :: pair.2)

theorem get?_present {fields : List (Str × Option Str)} (distinct : (fields.map Prod.fst).Nodup)
    (key : Str) : OrderedMap.get? (present fields) key = (OrderedMap.get? fields key).join := by
  induction fields with
  | nil => rfl
  | cons field fields ih =>
    obtain ⟨name, value⟩ := field
    obtain ⟨fresh, distinct⟩ := List.nodup_cons.mp distinct
    have others := ih distinct
    rw [OrderedMap.get?_cons]
    cases value with
    | none =>
      have skipped : present ((name, none) :: fields) = present fields := rfl
      rw [skipped, others]
      split
      next same =>
        have absent : OrderedMap.get? fields key = none := by
          apply OrderedMap.get?_eq_none.mpr
          rw [← same]
          exact fresh
        rw [absent]
        rfl
      next => rfl
    | some value =>
      have kept : present ((name, some value) :: fields) = (name, value) :: present fields := rfl
      rw [kept, OrderedMap.get?_cons, others]
      split
      · rfl
      · rfl

theorem comma_not_mem_natStr (n : Nat) : ',' ∉ natStr n := by
  intro member
  cases isDigit_of_mem_natStr member

theorem and_not_mem_natStr (n : Nat) : '&' ∉ natStr n := by
  intro member
  cases isDigit_of_mem_natStr member

theorem rect_text_injective : Function.Injective Rect.text := by
  have split : ∀ rect : Rect, rect.text.splitOn ',' =
      [natStr rect.x, natStr rect.y, natStr rect.w, natStr rect.h] := by
    intro rect
    apply List.splitOn_intercalate
    · simp [comma_not_mem_natStr]
    · simp
  intro rect rect' same
  have parts := split rect
  rw [same, split rect'] at parts
  obtain ⟨x, y, w, h⟩ := rect
  obtain ⟨x', y', w', h'⟩ := rect'
  simp only [List.cons.injEq, and_true] at parts
  rw [natStr_injective parts.1, natStr_injective parts.2.1, natStr_injective parts.2.2.1,
    natStr_injective parts.2.2.2]

/-- A text is cut in one way at the first of a character. -/
theorem cut_unique {c : Char} {left left' right right' : Str} (absent : c ∉ left)
    (absent' : c ∉ left') (same : left ++ c :: right = left' ++ c :: right') :
    left = left' ∧ right = right' := by
  have cut : splitOnce [c] (left ++ c :: right) = some (left, right) :=
    splitOnce_char_of_not_mem absent
  rw [same, splitOnce_char_of_not_mem absent'] at cut
  have parts := Prod.mk.inj (Option.some.inj cut)
  exact ⟨parts.1.symm, parts.2.symm⟩

theorem gravity_text_injective : Function.Injective (Gravity.text : Gravity floats → Str) := by
  intro gravity gravity' same
  obtain ⟨x, y⟩ := gravity
  obtain ⟨x', y'⟩ := gravity'
  obtain ⟨xs, ys⟩ := cut_unique (floats.text_plain x).1 (floats.text_plain x').1 same
  rw [Gravity.mk.injEq]
  exact ⟨floats.text_injective xs, floats.text_injective ys⟩

/-- A value that is left out where it is the default. -/
theorem eq_of_unless {α β : Type} [DecidableEq α] {shown : α → β}
    (injective : Function.Injective shown)
    {usual left right : α}
    (same : (if left = usual then none else some (shown left)) =
      if right = usual then none else some (shown right)) : left = right := by
  split at same
  next isUsual =>
    split at same
    next isUsual' => rw [isUsual, isUsual']
    next => cases same
  next =>
    split at same
    next => cases same
    next => exact injective (Option.some.inj same)

theorem fit_name_injective : Function.Injective Fit.name := by
  intro fit fit' same
  revert same
  cases fit <;> cases fit' <;> decide

theorem format_name_injective : Function.Injective Format.name := by
  intro format format' same
  revert same
  cases format <;> cases format' <;> decide

def canonicalKeys : List Str :=
  ["w", "h", "fit", "g", "rect", "q", "f"]

theorem keys_canonicalFields (shape : Shape floats) (resolved : Format) :
    (canonicalFields shape resolved).map Prod.fst = canonicalKeys :=
  rfl

theorem and_not_mem_value {shape : Shape floats} {resolved : Format} {key value : Str}
    (isField : (key, some value) ∈ canonicalFields shape resolved) : '&' ∉ value := by
  simp only [canonicalFields, List.mem_cons, List.not_mem_nil, or_false, Prod.mk.injEq] at isField
  rcases isField with ⟨-, is⟩ | ⟨-, is⟩ | ⟨-, is⟩ | ⟨-, is⟩ | ⟨-, is⟩ | ⟨-, is⟩ | ⟨-, is⟩
  · obtain ⟨w, -, rfl⟩ := Option.map_eq_some_iff.mp is.symm
    exact and_not_mem_natStr w
  · obtain ⟨h, -, rfl⟩ := Option.map_eq_some_iff.mp is.symm
    exact and_not_mem_natStr h
  · split at is
    · cases is
    · cases is
      cases shape.fit <;> decide
  · split at is
    · cases is
    · cases is
      have first := (floats.text_plain shape.g.x).2
      have second := (floats.text_plain shape.g.y).2
      simp [Gravity.text, first, second]
  · obtain ⟨rect, -, rfl⟩ := Option.map_eq_some_iff.mp is.symm
    intro member
    rcases mem_join member with separator | ⟨part, isPart, member⟩
    · revert separator
      decide
    · simp only [List.mem_cons, List.not_mem_nil, or_false] at isPart
      rcases isPart with rfl | rfl | rfl | rfl
      all_goals exact and_not_mem_natStr _ member
  · cases is
    exact and_not_mem_natStr _
  · cases is
    cases resolved <;> decide

/-- The pairs of a canonical text can be told apart in it. -/
theorem present_plain (shape : Shape floats) (resolved : Format) :
    ∀ pair ∈ present (canonicalFields shape resolved),
      '=' ∉ pair.1 ∧ '&' ∉ pair.1 ++ '=' :: pair.2 := by
  have keys : ∀ key ∈ canonicalKeys, '=' ∉ key ∧ '&' ∉ key := by decide
  intro pair member
  obtain ⟨field, isField, shown⟩ := List.mem_filterMap.mp member
  obtain ⟨name, shownValue⟩ := field
  obtain ⟨value, isValue, rfl⟩ := Option.map_eq_some_iff.mp shown
  have key := keys name (by
    rw [← keys_canonicalFields shape resolved]
    exact List.mem_map_of_mem isField)
  have isValue : shownValue = some value := isValue
  rw [isValue] at isField
  refine ⟨key.1, ?_⟩
  simp [key.2, and_not_mem_value isField]

theorem present_of_canonical {shape shape' : Shape floats} {resolved resolved' : Format}
    (same : canonical shape resolved = canonical shape' resolved') :
    present (canonicalFields shape resolved) = present (canonicalFields shape' resolved') := by
  have split : ∀ (shape : Shape floats) resolved, (canonical shape resolved).splitOn '&' =
      (present (canonicalFields shape resolved)).map fun pair => pair.1 ++ '=' :: pair.2 := by
    intro shape resolved
    apply List.splitOn_intercalate
    · intro piece member
      obtain ⟨pair, isPair, rfl⟩ := List.mem_map.mp member
      exact (present_plain shape resolved pair isPair).2
    · have last : ((("f" : Str), resolved.name) : Str × Str) ∈
          present (canonicalFields shape resolved) :=
        List.mem_filterMap.mpr ⟨("f", some resolved.name), by simp [canonicalFields], rfl⟩
      intro none_
      rw [List.map_eq_nil_iff.mp none_] at last
      cases last
  have read : ∀ (shape : Shape floats) resolved,
      ((canonical shape resolved).splitOn '&').map (splitOnce ['=']) =
        (present (canonicalFields shape resolved)).map some := by
    intro shape resolved
    rw [split, List.map_map]
    apply List.map_congr_left
    intro pair member
    exact splitOnce_char_of_not_mem (present_plain shape resolved pair member).1
  have pairs := read shape resolved
  rw [same, read shape' resolved'] at pairs
  exact (List.map_injective_iff.mpr (Option.some_injective _) pairs).symm

/-- A canonical text determines the shape and the format. -/
theorem eq_of_canonical {shape shape' : Shape floats} {resolved resolved' : Format}
    (same : canonical shape resolved = canonical shape' resolved') :
    shape = shape' ∧ resolved = resolved' := by
  have lookup : ∀ key, (OrderedMap.get? (canonicalFields shape resolved) key).join =
      (OrderedMap.get? (canonicalFields shape' resolved') key).join := by
    intro key
    have distinct : canonicalKeys.Nodup := by decide
    rw [← get?_present (by rw [keys_canonicalFields]; exact distinct),
      ← get?_present (by rw [keys_canonicalFields]; exact distinct), present_of_canonical same]
  have w : shape.w.map natStr = shape'.w.map natStr := lookup "w"
  have h : shape.h.map natStr = shape'.h.map natStr := lookup "h"
  have rect : shape.rect.map Rect.text = shape'.rect.map Rect.text := lookup "rect"
  have q : some (natStr shape.quality) = some (natStr shape'.quality) := lookup "q"
  have f : some resolved.name = some resolved'.name := lookup "f"
  have fit := eq_of_unless fit_name_injective (lookup "fit")
  have g := eq_of_unless gravity_text_injective (lookup "g")
  refine ⟨?_, format_name_injective (Option.some.inj f)⟩
  cases shape
  cases shape'
  rw [Shape.mk.injEq]
  exact ⟨Option.map_injective natStr_injective w, Option.map_injective natStr_injective h, fit, g,
    Option.map_injective rect_text_injective rect, natStr_injective (Option.some.inj q)⟩

end Rs2Runtime.Guest.Image
