import Rs2Runtime.Message.Basic

/-!
Contract: path safety, enforced by the router for every service.

Owns: the checks on a request path, raw and percent-decoded, with their errors.
-/

namespace Rs2Runtime.Router

open Text

/-- A segment of two or more characters, all of them dots. -/
def isTraversal (segment : Str) : Bool :=
  2 ≤ segment.length && segment.all (· == '.')

/-- A segment that starts with a drive letter. -/
def isDriveLetter : Str → Bool
  | letter :: ':' :: _ => letter.isAlpha
  | _ => false

/-- The checks on one reading of the path. -/
def checkCandidate (candidate : Str) : Except RsError Unit :=
  if candidate.contains '\x00' || contains "%00" candidate then
    .error (.pathUnsafe "path contains a null byte")
  else if candidate.contains '\\' then
    .error (.pathUnsafe "path contains a backslash")
  else if candidate.any isControl then
    .error (.pathUnsafe "path contains control characters")
  else if (candidate.splitOn '/').any isTraversal then
    .error (.pathUnsafe "path contains a traversal segment")
  else if (candidate.splitOn '/').any isDriveLetter then
    .error (.pathUnsafe "path contains a drive letter")
  else
    .ok ()

/-- Reject unsafe paths: the raw text is checked, then its percent-decoded reading. -/
def validatePath (path : Str) : Except RsError Unit :=
  (checkCandidate path).bind fun _ => checkCandidate (percentDecode path)

/-- What passes the checks has no backslash, and no segment that climbs or names a drive. -/
theorem checkCandidate_eq_ok {candidate : Str} (checked : checkCandidate candidate = .ok ()) :
    '\\' ∉ candidate ∧
      ∀ segment ∈ candidate.splitOn '/',
        isTraversal segment = false ∧ isDriveLetter segment = false := by
  unfold checkCandidate at checked
  repeat' split at checked
  all_goals try cases checked
  simp_all

theorem checkCandidate_of_validatePath {path : Str} (valid : validatePath path = .ok ()) :
    checkCandidate path = .ok () := by
  unfold validatePath at valid
  cases checked : checkCandidate path with
  | error refusal => rw [checked] at valid; cases valid
  | ok passed => rfl

end Rs2Runtime.Router
