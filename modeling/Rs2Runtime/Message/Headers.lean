import Rs2Runtime.Message.Basic

/-!
Contract: what setting a header changes.

Owns:
- texts that can be read back as header values;
- the header lines, the status and the body after a header is set;
- values added to a header that is a list.
-/

namespace Rs2Runtime

open Text Data

theorem isVisibleAscii_natStr (n : Nat) : isVisibleAscii (natStr n) = true := by
  refine List.all_eq_true.mpr fun c member => ?_
  have range := bounds_of_isDigit (isDigit_of_mem_natStr member)
  rw [Bool.or_eq_true, Bool.and_eq_true, decide_eq_true_eq, decide_eq_true_eq]
  omega

theorem isVisibleAscii_append (left right : Str) :
    isVisibleAscii (left ++ right) = (isVisibleAscii left && isVisibleAscii right) :=
  List.all_append

theorem first_set (headers : HeaderMap) (name value other : Str) :
    (headers.set name value).first other =
      if other = name then some value else headers.first other := by
  unfold HeaderMap.set HeaderMap.first
  induction headers with
  | nil => simp [OrderedMap.get?_cons, eq_comm]
  | cons line rest ih =>
    by_cases replaced : line.1 = name
    · rw [List.filter_cons_of_neg (by simpa using replaced), ih]
      by_cases same : other = name
      · rw [if_pos same, if_pos same]
      · rw [if_neg same, if_neg same, OrderedMap.get?_cons,
          if_neg fun found => same (found.symm.trans replaced)]
    · rw [List.filter_cons_of_pos (by simpa using replaced), List.cons_append]
      rw [OrderedMap.get?_cons, OrderedMap.get?_cons, ih]
      by_cases found : line.1 = other
      · rw [if_pos found, if_pos found, if_neg fun same => replaced (found.trans same)]
      · rw [if_neg found, if_neg found]

theorem first_setHeader (msg : Message) (name value other : Str) :
    (msg.setHeader name value).headers.first other =
      if other = name ∧ isHeaderValue value = true then some value
      else msg.headers.first other := by
  unfold Message.setHeader
  by_cases valid : isHeaderValue value = true
  · rw [if_pos valid]
    show (msg.headers.set name value).first other = _
    rw [first_set]
    simp [valid]
  · rw [if_neg valid, if_neg fun both => valid both.2]

@[simp]
theorem status_setHeader (msg : Message) (name value : Str) :
    (msg.setHeader name value).status = msg.status := by
  unfold Message.setHeader
  split <;> rfl

theorem header_setHeader_of_ne {name other : Str} (different : other ≠ name) (msg : Message)
    (value : Str) : (msg.setHeader name value).header other = msg.header other := by
  unfold Message.header
  rw [first_setHeader, if_neg fun both => different both.1]

theorem header_setHeader_self {value : Str} (visible : isVisibleAscii value = true)
    (msg : Message) (name : Str) : (msg.setHeader name value).header name = some value := by
  have valid : isHeaderValue value = true := by
    unfold isVisibleAscii at visible
    unfold isHeaderValue
    rw [List.all_eq_true] at visible ⊢
    intro c member
    have seen := visible c member
    simp only [Bool.or_eq_true, beq_iff_eq, Bool.and_eq_true, decide_eq_true_eq] at seen ⊢
    exact seen.imp_right fun printed => ⟨printed.1, by omega⟩
  unfold Message.header
  rw [first_setHeader, if_pos ⟨rfl, valid⟩]
  simp [visible]

namespace Wrapper

/-- The header line with a value added to it, unless it is there already. -/
def appendHeaderValue (resp : Message) (name value : Str) : Message :=
  match resp.header name with
  | some existing =>
    if existing = [] then resp.setHeader name value
    else if (existing.splitOn ',').any fun part =>
        toAsciiLowercase (trim part) = toAsciiLowercase (trim value) then resp
    else resp.setHeader name (existing ++ (", " : Str) ++ value)
  | none => resp.setHeader name value

theorem header_appendHeaderValue_of_ne {name other : Str} (different : other ≠ name)
    (resp : Message) (value : Str) :
    (appendHeaderValue resp name value).header other = resp.header other := by
  unfold appendHeaderValue
  cases resp.header name with
  | none => exact header_setHeader_of_ne different resp value
  | some existing =>
    dsimp only
    split_ifs
    · exact header_setHeader_of_ne different resp value
    · rfl
    · exact header_setHeader_of_ne different resp _

theorem status_appendHeaderValue (resp : Message) (name value : Str) :
    (appendHeaderValue resp name value).status = resp.status := by
  unfold appendHeaderValue
  cases resp.header name with
  | none => exact status_setHeader resp name value
  | some existing =>
    dsimp only
    split_ifs
    · exact status_setHeader resp name value
    · rfl
    · exact status_setHeader resp name _

end Wrapper

end Rs2Runtime
