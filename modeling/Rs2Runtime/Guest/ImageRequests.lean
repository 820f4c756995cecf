import Rs2Runtime.Guest.ImageParams

/-!
Contract: the parameters that requests for derived images are accepted with.

Owns:
- accepted parameters are within the limits of their mount, and have the sizes their fit needs;
- pairs of a query in another order ask for the same derivative.
-/

namespace Rs2Runtime.Guest.Image

open Text Data Data.Outcome Json

variable {floats : Floats}

variable {config : Config} {params : Params floats} {value : Str} {given : Given floats}

theorem parse_eq_ok_some {query : Str} :
    parse floats config query = .ok (some params) ↔ pairsOf query ≠ [] ∧
      ∃ settings, List.Forall₂ (fun pair setting => readPair floats pair = .ok setting)
          (pairsOf query) settings ∧
        (settings.foldl Given.set (Given.nothing floats)).params config = .ok params := by
  have sequence : parse floats config query =
      (pairsOf query).mapM (readPair floats) >>= fun settings =>
        if pairsOf query = [] then .ok none
        else ((settings.foldl Given.set (Given.nothing floats)).params config).map some := rfl
  rw [sequence, bind_eq_ok]
  constructor
  · rintro ⟨settings, read, made⟩
    split at made
    · cases made
    next nonempty =>
      obtain ⟨made', ok, same⟩ := map_eq_ok.mp made
      cases same
      exact ⟨nonempty, settings, mapM_eq_ok_iff.mp read, ok⟩
  · rintro ⟨nonempty, settings, read, ok⟩
    refine ⟨settings, mapM_eq_ok_iff.mpr read, ?_⟩
    rw [if_neg nonempty, ok]
    rfl

/-! ## Settings -/

/-- The parameter that a pair sets. -/
def parameter (pair : Str) : Str :=
  if (cutPair pair).1 = "format" then "f" else (cutPair pair).1

def Setting.slot : Setting floats → Str
  | .w _ => "w"
  | .h _ => "h"
  | .dpr _ => "dpr"
  | .fit _ => "fit"
  | .g _ => "g"
  | .rect _ => "rect"
  | .format _ => "f"
  | .quality _ => "q"

/-- A crop that is not empty, and a quality in its range. -/
def Setting.Sane : Setting floats → Prop
  | .rect crop => 1 ≤ crop.w ∧ 1 ≤ crop.h
  | .quality value => 1 ≤ value ∧ value ≤ 100
  | .w _ | .h _ | .dpr _ | .fit _ | .g _ | .format _ => True

theorem pos_of_parseU32 {key : Str} {n : Nat} (read : parseU32 key value = .ok n) : 1 ≤ n := by
  unfold parseU32 at read
  split at read
  next found =>
    cases read
    have bound := (Option.filter_eq_some_iff.mp found).2
    exact of_decide_eq_true bound
  next => cases read

theorem crop_of_readRect {crop : Rect} (read : readRect value = .ok crop) :
    1 ≤ crop.w ∧ 1 ≤ crop.h := by
  unfold readRect at read
  split at read
  · split at read
    · simp only [bind_eq_ok, pure_eq_ok] at read
      obtain ⟨w, width, h, height, rfl⟩ := read
      exact ⟨pos_of_parseU32 width, pos_of_parseU32 height⟩
    · cases read
  · cases read

theorem bounds_of_readQuality {quality : Nat} (read : readQuality value = .ok quality) :
    1 ≤ quality ∧ quality ≤ 100 := by
  unfold readQuality at read
  split at read
  next found =>
    cases read
    have bound := (Option.filter_eq_some_iff.mp found).2
    exact of_decide_eq_true bound
  next => cases read

/-- What is read of a pair sets its parameter, to a sane value. -/
theorem readPair_spec {pair : Str} {setting : Setting floats}
    (read : readPair floats pair = .ok setting) :
    setting.slot = parameter pair ∧ setting.Sane := by
  unfold readPair readSetting at read
  unfold parameter
  generalize (cutPair pair).1 = key at read ⊢
  split_ifs at read with isW isH isDpr isFit isG isRect isFormat isQuality
  · obtain ⟨size, -, rfl⟩ := map_eq_ok.mp read
    exact ⟨by rw [isW]; rfl, trivial⟩
  · obtain ⟨size, -, rfl⟩ := map_eq_ok.mp read
    exact ⟨by rw [isH]; rfl, trivial⟩
  · obtain ⟨ratio, -, rfl⟩ := map_eq_ok.mp read
    exact ⟨by rw [isDpr]; rfl, trivial⟩
  · obtain ⟨fit, -, rfl⟩ := map_eq_ok.mp read
    exact ⟨by rw [isFit]; rfl, trivial⟩
  · obtain ⟨gravity, -, rfl⟩ := map_eq_ok.mp read
    exact ⟨by rw [isG]; rfl, trivial⟩
  · obtain ⟨crop, made, rfl⟩ := map_eq_ok.mp read
    exact ⟨by rw [isRect]; rfl, crop_of_readRect made⟩
  · obtain ⟨format, -, rfl⟩ := map_eq_ok.mp read
    refine ⟨?_, trivial⟩
    rcases isFormat with rfl | rfl
    · rfl
    · rfl
  · obtain ⟨quality, made, rfl⟩ := map_eq_ok.mp read
    exact ⟨by rw [isQuality]; rfl, bounds_of_readQuality made⟩

/-! ## Limits -/

/-- What the pairs have set is as sane as they are. -/
def Given.Sane (given : Given floats) : Prop :=
  (∀ rect ∈ given.rect, 1 ≤ rect.w ∧ 1 ≤ rect.h) ∧
    ∀ quality ∈ given.quality, 1 ≤ quality ∧ quality ≤ 100

theorem Given.Sane.set (sane : given.Sane) {setting : Setting floats} (one : setting.Sane) :
    (given.set setting).Sane := by
  cases setting with
  | rect rect =>
    refine ⟨?_, sane.2⟩
    rintro _ ⟨⟩
    exact one
  | quality quality =>
    refine ⟨sane.1, ?_⟩
    rintro _ ⟨⟩
    exact one
  | _ => exact sane

theorem Given.Sane.foldl {settings : List (Setting floats)}
    (all : ∀ setting ∈ settings, setting.Sane) (sane : given.Sane) :
    (settings.foldl Given.set given).Sane := by
  induction settings generalizing given with
  | nil => exact sane
  | cons setting settings ih =>
    apply ih
    · intro later member
      exact all later (List.mem_cons_of_mem _ member)
    · exact sane.set (all setting List.mem_cons_self)

/-- Parameters within the limits of a mount. -/
structure Within (config : Config) (params : Params floats) : Prop where
  width : ∀ w ∈ params.w, w ≤ config.maxWidth
  height : ∀ h ∈ params.h, h ≤ config.maxHeight
  ladder : params.h = none → config.widths ≠ [] →
    ∀ w ∈ params.w, w ∈ config.widths ∨ w = config.maxWidth
  boxed : params.fit = .cover ∨ params.fit = .fill → params.w.isSome ∧ params.h.isSome
  shaped : params.w.isSome ∨ params.h.isSome ∨ params.rect.isSome
  crop : ∀ rect ∈ params.rect, 1 ≤ rect.w ∧ 1 ≤ rect.h
  quality : 1 ≤ params.quality ∧ params.quality ≤ 100

theorem snap_le {width : Nat} (bound : width ≤ config.maxWidth) :
    snap config width ≤ config.maxWidth := by
  unfold snap
  split
  · exact bound
  · exact Nat.min_le_right _ _

theorem snap_mem (nonempty : config.widths ≠ []) (width : Nat) :
    snap config width ∈ config.widths ∨ snap config width = config.maxWidth := by
  unfold snap
  split
  next none_ => exact absurd (List.getLast?_eq_none_iff.mp none_) nonempty
  next last isLast =>
    have rung : (config.widths.find? (width ≤ ·)).getD last ∈ config.widths := by
      cases found : config.widths.find? (width ≤ ·) with
      | none => exact List.mem_of_getLast? isLast
      | some rung => exact List.mem_of_find?_eq_some found
    rcases Nat.le_total ((config.widths.find? (width ≤ ·)).getD last) config.maxWidth with
      below | above
    · rw [Nat.min_eq_left below]
      exact .inl rung
    · exact .inr (Nat.min_eq_right above)

theorem every_fit (fit : Fit) :
    (fit = .cover ∨ fit = .fill) ∨ fit = .contain ∨ fit = .scaleDown := by
  cases fit <;> decide

theorem Given.Sane.within (sane : given.Sane)
    (standard : 1 ≤ config.defaultQuality ∧ config.defaultQuality ≤ 100)
    (made : given.params config = .ok params) : Within config params := by
  unfold Given.params at made
  dsimp only at made
  split at made
  · cases made
  next boxed =>
    split at made
    · cases made
    next shaped =>
      cases made
      have bounded : ∀ {size : Option Nat} {limit : Nat} {scale : Nat → Nat} {value : Nat},
          value ∈ size.map (fun n => min (scale n) limit) → value ≤ limit := by
        intro size limit scale value member
        obtain ⟨n, -, rfl⟩ := Option.mem_map.mp member
        exact Nat.min_le_right _ _
      constructor
      · intro w member
        dsimp only at member
        split at member
        · obtain ⟨plain, isPlain, rfl⟩ := Option.mem_map.mp member
          exact snap_le (bounded isPlain)
        · exact bounded member
      · intro h member
        exact bounded member
      · intro noHeight ladder w member
        dsimp only at noHeight member
        rw [if_pos noHeight] at member
        obtain ⟨plain, -, rfl⟩ := Option.mem_map.mp member
        exact snap_mem ladder plain
      · intro fills
        dsimp only at fills ⊢
        have width : ¬ _ = none := fun missing => boxed ⟨fills, .inl missing⟩
        have height : ¬ _ = none := fun missing => boxed ⟨fills, .inr missing⟩
        rw [if_neg height]
        exact ⟨Option.isSome_iff_ne_none.mpr width, Option.isSome_iff_ne_none.mpr height⟩
      · dsimp only
        by_contra nothing
        simp only [not_or, Bool.not_eq_true, Option.isSome_eq_false_iff, Option.isNone_iff_eq_none]
          at nothing
        obtain ⟨noWidth, noHeight, noCrop⟩ := nothing
        rw [if_pos noHeight, Option.map_eq_none_iff] at noWidth
        rcases every_fit (given.fit.getD .scaleDown) with fills | fits
        · exact boxed ⟨fills, .inl noWidth⟩
        · exact shaped ⟨fits, noWidth, noHeight, noCrop⟩
      · exact sane.1
      · dsimp only
        cases given_ : given.quality with
        | none => exact standard
        | some quality => exact sane.2 quality given_

theorem bounds_of_fromJson {value : Value} (accepted : Config.fromJson value = .ok config) :
    1 ≤ config.defaultQuality ∧ config.defaultQuality ≤ 100 := by
  have positives : ∀ {key : Str} {found : Option Nat}, uint value key = .ok found →
      ∀ n ∈ found, 1 ≤ n := by
    intro key found read n isN
    unfold uint at read
    split at read
    · cases read
      cases isN
    · split at read
      next number _ _ positive_ =>
        cases read
        cases isN
        unfold positive at positive_
        split at positive_
        · have bound := (Option.filter_eq_some_iff.mp positive_).2
          exact of_decide_eq_true bound
        · cases positive_
      · cases read
  unfold Config.fromJson at accepted
  simp only [bind_eq_ok, pure_eq_ok, require_eq_ok] at accepted
  obtain ⟨maxWidth, -, maxHeight, -, pixels, -, quality, read, -, low, widths, -, rfl⟩ := accepted
  have standard : 1 ≤ Config.default.defaultQuality ∧ Config.default.defaultQuality ≤ 100 := by
    decide
  cases quality with
  | none => exact standard
  | some n => exact ⟨positives read n rfl, of_decide_eq_true low⟩

/-- Accepted parameters are within the limits of the mount, and have what their fit needs. -/
theorem accepted_params_are_within_limits {value : Value} {config : Config} {query : Str}
    {params : Params floats} (limits : Config.fromJson value = .ok config)
    (accepted : parse floats config query = .ok (some params)) : Within config params := by
  obtain ⟨-, settings, read, made⟩ := parse_eq_ok_some.mp accepted
  have sane : (settings.foldl Given.set (Given.nothing floats)).Sane := by
    apply Given.Sane.foldl
    · intro setting member
      obtain ⟨pair, -, one⟩ := exists_of_mem_mapM (mapM_eq_ok_iff.mpr read) member
      exact (readPair_spec one).2
    · constructor
      · rintro _ ⟨⟩
      · rintro _ ⟨⟩
  exact sane.within (bounds_of_fromJson limits) made

/-- A width on its own. -/
def narrowParams : Params plainFloats where
  w := some 5
  h := none
  fit := .scaleDown
  g := center plainFloats
  rect := none
  quality := 78
  format := .auto

theorem narrow_params_are_within_limits : Within Config.default narrowParams := by
  have limits : Config.fromJson .null = .ok Config.default := rfl
  have accepted : parse plainFloats Config.default "w=5" = .ok (some narrowParams) := rfl
  exact accepted_params_are_within_limits limits accepted

/-! ## Order -/

theorem set_comm {one other : Setting floats} (apart : one.slot ≠ other.slot)
    (given : Given floats) : (given.set one).set other = (given.set other).set one := by
  cases one <;> cases other <;> first | rfl | exact absurd rfl apart

theorem slots_of_readPair {pairs : List Str} {settings : List (Setting floats)}
    (read : List.Forall₂ (fun pair setting => readPair floats pair = .ok setting) pairs settings) :
    settings.map Setting.slot = pairs.map parameter := by
  induction read with
  | nil => rfl
  | cons one _ ih => rw [List.map_cons, List.map_cons, ih, (readPair_spec one).1]

theorem parse_of_perm {query other : Str} (same : (pairsOf query).Perm (pairsOf other))
    (distinct : ((pairsOf query).map parameter).Nodup)
    (accepted : parse floats config query = .ok (some params)) :
    parse floats config other = .ok (some params) := by
  obtain ⟨nonempty, settings, read, made⟩ := parse_eq_ok_some.mp accepted
  obtain ⟨settings', read', order⟩ := List.perm_comp_forall₂ same.symm read
  have slots : (settings.map Setting.slot).Nodup := by
    rw [slots_of_readPair read]
    exact distinct
  have folded : settings.foldl Given.set (Given.nothing floats) =
      settings'.foldl Given.set (Given.nothing floats) := by
    apply List.Perm.foldl_eq' order.symm
    intro one member other member' given
    by_cases alike : one.slot = other.slot
    · rw [List.inj_on_of_nodup_map slots member member' alike]
    · exact set_comm alike given
  rw [folded] at made
  exact parse_eq_ok_some.mpr ⟨fun none_ => nonempty (by rw [none_] at same; exact same.eq_nil),
    settings', read', made⟩

/-- Queries with the same pairs, each for a parameter of its own, ask for one derivative. -/
theorem order_of_pairs_is_irrelevant (config : Config) {query other : Str}
    (same : (pairsOf query).Perm (pairsOf other))
    (distinct : ((pairsOf query).map parameter).Nodup) (params : Params floats) :
    parse floats config query = .ok (some params) ↔
      parse floats config other = .ok (some params) := by
  constructor
  · exact parse_of_perm same distinct
  · apply parse_of_perm same.symm
    exact (same.map parameter).nodup_iff.mp distinct

theorem quality_first_or_last :
    parse plainFloats Config.default "q=9&w=5" = .ok (some { narrowParams with quality := 9 }) := by
  have same : (pairsOf "w=5&q=9").Perm (pairsOf "q=9&w=5") := by decide
  have distinct : ((pairsOf "w=5&q=9").map parameter).Nodup := by decide
  exact (order_of_pairs_is_irrelevant Config.default same distinct _).mp rfl

end Rs2Runtime.Guest.Image
