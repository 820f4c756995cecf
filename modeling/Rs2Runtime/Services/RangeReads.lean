import Rs2Runtime.Message.Headers
import Rs2Runtime.Message.MediaType
import Rs2Runtime.Services.File
import Rs2Runtime.Services.FileServe

/-!
Contract: what ranged reads of a file are answered with.

Owns:
- the single byte ranges of HTTP, read strictly, with the positions they stand for;
- exact answers: the status that HTTP asks for, with the positions of the range or the whole
  content;
- the equivalence of exact answers with the header being read as it is written, and with the
  refusal coming neither before the check of a stale `If-Range` nor for an empty file.

Does not own: sets of several ranges.
-/

namespace Rs2Runtime.Services

open Text Data Json Capabilities Adapters

/-! ## Ranges as HTTP defines them -/

/-- A single byte range: the unit in any case, and positions that are digits. -/
def rfcRange (header : Str) : Option RangeSpec :=
  (splitOnce ['='] header).bind fun parts =>
    if toAsciiLowercase parts.1 = "bytes" ∧ ',' ∉ parts.2 then
      (splitOnce ['-'] parts.2).bind fun positions =>
        rangeBetween parseDigits positions.1 positions.2
    else
      none

/-- Whether a range is satisfiable for a content of some length. -/
def RangeSpec.Satisfiable (total : Nat) : RangeSpec → Prop
  | .offset start _ => start < total
  | .suffix count => 0 < count

instance (total : Nat) (spec : RangeSpec) : Decidable (spec.Satisfiable total) :=
  match spec with
  | .offset start _ => inferInstanceAs (Decidable (start < total))
  | .suffix count => inferInstanceAs (Decidable (0 < count))

/-- The first and last position that a range stands for. -/
def RangeSpec.positions (total : Nat) : RangeSpec → Nat × Nat
  | .offset start none => (start, total - 1)
  | .offset start (some stop) => (start, min stop (total - 1))
  | .suffix count => (total - min count total, total - 1)

/-- The status that a range of a content is answered with. An empty content has no positions: a
satisfiable range of it is all of it. -/
def rangeStatus (total : Nat) : Option RangeSpec → Nat
  | none => 200
  | some spec => if spec.Satisfiable total then if total = 0 then 200 else 206 else 416

/-- The range that a caller asks for: none where their part is of another content. -/
def rangeAsked (header : Str) (ifRange : Option Str) (content : Content) : Option RangeSpec :=
  if isStale ifRange content then none else rfcRange header

/-- The response to a ranged read of a content is exact. -/
structure RangeAnswer (content : Content) (header : Str) (ifRange : Option Str)
    (response : Message) : Prop where
  status : response.status =
    some (rangeStatus content.octets.length (rangeAsked header ifRange content))
  part : response.status = some 206 →
    ∃ spec first last, rangeAsked header ifRange content = some spec ∧
      spec.positions content.octets.length = (first, last) ∧
      first ≤ last ∧ last < content.octets.length ∧
      response.header "content-range" = some (contentRange first last content.octets.length) ∧
      ∃ body, response.body = some body ∧
        body.streamed = .ok ((content.octets.drop first).take (last - first + 1)) ∧
        body.size = some (last - first + 1)
  whole : response.status = some 200 →
    ∃ body, response.body = some body ∧ body.streamed = .ok content.octets

/-- A ranged read of a content ends, and with an exact response. -/
def RangeExact (content : Content) (header : Str) (ifRange : Option Str)
    (result : Checked Message) : Prop :=
  ∃ response, result = some (.ok response) ∧ RangeAnswer content header ifRange response

/-- The positions of a range are below `2 ^ 64`. -/
def RangeSpec.Fits : RangeSpec → Prop
  | .offset start stop => start < 2 ^ 64 ∧ ∀ last, stop = some last → last < 2 ^ 64
  | .suffix count => count < 2 ^ 64

/-- Where the caller's part is of this content, a range has its unit in lower case and positions
of 64 bits, a satisfiable range of an empty content apart, which has not, and what is no range is
not read as one; otherwise what the header is read as is satisfiable, if it is read as a range at
all. -/
def RegularRange (header : Str) (stale : Bool) (total : Nat) : Prop :=
  if stale then
    ∀ spec, parseRange header = some spec → spec.Satisfiable total ∧ total ≠ 0
  else
    (∀ spec, rfcRange header = some spec →
      (("bytes=" : Str) <+: header ∧ spec.Fits ↔ ¬ (spec.Satisfiable total ∧ total = 0))) ∧
    (rfcRange header = none → parseRange header = none)

/-! ## Reading the header -/

theorem trim_of_digits {s : Str} (digits : s.all Char.isDigit = true) : trim s = s := by
  apply trim_eq_self
  intro c member
  exact isWhitespace_of_isDigit (List.all_eq_true.mp digits c member)

/-- Digits are not trimmed, and the service reads them as the number they are, if it has 64
bits. -/
theorem parseDigits_eq_some {s : Str} {n : Nat} (read : parseDigits s = some n) :
    trim s = s ∧ parseU64 s = if n < 2 ^ 64 then some n else none := by
  have known := read
  unfold parseDigits at known
  split at known
  · rename_i digits
    refine ⟨trim_of_digits digits.2, ?_⟩
    unfold parseU64
    split
    · have plus := List.all_eq_true.mp digits.2 '+' List.mem_cons_self
      exact absurd plus (by decide)
    · rw [read, Option.bind_some]
  · cases known

variable {spec : RangeSpec} {first last : Nat}

/-- A range that is read strictly is read by the service as the same range, if it fits. -/
theorem rangeBetween_iff {first last : Str}
    (strict : rangeBetween parseDigits first last = some spec) (other : RangeSpec) :
    rangeBetween parseU64 (trim first) (trim last) = some other ↔ spec.Fits ∧ spec = other := by
  have empty : trim ([] : Str) = [] := rfl
  unfold rangeBetween at strict ⊢
  by_cases noFirst : first = []
  · subst noFirst
    rw [if_pos rfl] at strict
    obtain ⟨count, read, rfl⟩ := Option.map_eq_some_iff.mp strict
    obtain ⟨kept, lax⟩ := parseDigits_eq_some read
    rw [if_pos empty, kept, lax, RangeSpec.Fits]
    by_cases fits : count < 2 ^ 64
    · rw [if_pos fits, and_iff_right fits, Option.map_some, Option.some.injEq]
    · rw [if_neg fits]
      exact iff_of_false nofun fun both => fits both.1
  · rw [if_neg noFirst] at strict
    obtain ⟨start, readStart, strict⟩ := Option.bind_eq_some_iff.mp strict
    obtain ⟨keptFirst, laxStart⟩ := parseDigits_eq_some readStart
    rw [keptFirst, if_neg noFirst, laxStart]
    by_cases fits : start < 2 ^ 64
    · rw [if_pos fits, Option.bind_some]
      by_cases noLast : last = []
      · subst noLast
        rw [if_pos rfl] at strict
        cases strict
        have positions : (RangeSpec.offset start none).Fits := ⟨fits, fun _ none_ => by cases none_⟩
        rw [if_pos empty, and_iff_right positions, Option.some.injEq]
      · rw [if_neg noLast] at strict
        obtain ⟨stop, readStop, strict⟩ := Option.bind_eq_some_iff.mp strict
        obtain ⟨keptLast, laxStop⟩ := parseDigits_eq_some readStop
        rw [keptLast, if_neg noLast, laxStop]
        split at strict
        · cases strict
        · rename_i ordered
          cases strict
          by_cases fits' : stop < 2 ^ 64
          · have positions : (RangeSpec.offset start (some stop)).Fits :=
              ⟨fits, fun _ isLast => by cases isLast; exact fits'⟩
            rw [if_pos fits', Option.bind_some, if_neg ordered, and_iff_right positions,
              Option.some.injEq]
          · have overflow : ¬ (RangeSpec.offset start (some stop)).Fits :=
              fun both => fits' (both.2 stop rfl)
            rw [if_neg fits']
            simp [overflow]
    · have overflow : ¬ spec.Fits := by
        split at strict
        · cases strict
          exact fun both => fits both.1
        · obtain ⟨stop, -, strict⟩ := Option.bind_eq_some_iff.mp strict
          split at strict
          · cases strict
          · cases strict
            exact fun both => fits both.1
      rw [if_neg fits]
      simp [overflow]

/-- A range is read by the service exactly if its unit is in lower case and its positions have 64
bits, and then as the same range. -/
theorem parseRange_iff {header : Str} (strict : rfcRange header = some spec) (other : RangeSpec) :
    parseRange header = some other ↔
      ("bytes=" : Str) <+: header ∧ spec.Fits ∧ spec = other := by
  by_cases lower : ("bytes=" : Str) <+: header
  · obtain ⟨set, rfl⟩ := lower
    have unit : splitOnce ['='] (("bytes=" : Str) ++ set) = some (("bytes" : Str), set) := by
      have split : ("bytes=" : Str) ++ set = ("bytes" : Str) ++ '=' :: set := rfl
      rw [split]
      exact splitOnce_char_of_not_mem (by decide)
    rw [rfcRange, unit, Option.bind_some] at strict
    rw [parseRange, stripStart_eq_some.mpr rfl, Option.bind_some]
    split at strict
    · rename_i single
      obtain ⟨parts, split_, strict⟩ := Option.bind_eq_some_iff.mp strict
      rw [if_neg single.2, split_, Option.bind_some, rangeBetween_iff strict]
      simp
    · cases strict
  · have unread : stripStart ("bytes=" : Str) header = none := if_neg lower
    rw [parseRange, unread]
    exact iff_of_false nofun fun all => lower all.1

/-- The end of a range that is read is not before its start. -/
theorem ordered_of_parseRange {header : Str} {start stop : Nat}
    (read : parseRange header = some (.offset start (some stop))) : start ≤ stop := by
  obtain ⟨set, -, read⟩ := Option.bind_eq_some_iff.mp read
  split at read
  · cases read
  obtain ⟨parts, -, read⟩ := Option.bind_eq_some_iff.mp read
  unfold rangeBetween at read
  split at read
  · obtain ⟨count, -, suffix⟩ := Option.map_eq_some_iff.mp read
    cases suffix
  obtain ⟨first, -, read⟩ := Option.bind_eq_some_iff.mp read
  split at read
  · cases read
  obtain ⟨last, -, read⟩ := Option.bind_eq_some_iff.mp read
  split at read
  · cases read
  · rename_i ordered
    cases read
    exact Nat.le_of_not_lt ordered

/-! ## Positions -/

/-- A resolved range is satisfiable, and resolved to its positions. -/
theorem resolve_eq_some {total : Nat}
    (ordered : ∀ start stop, spec = .offset start (some stop) → start ≤ stop)
    (resolved : spec.resolve total = some (first, last)) :
    spec.Satisfiable total ∧ spec.positions total = (first, last) ∧ first ≤ last ∧
      last < total := by
  unfold RangeSpec.resolve at resolved
  split at resolved
  · cases resolved
  rename_i nonempty
  cases spec with
  | offset start stop =>
    dsimp only at resolved
    split at resolved
    · cases resolved
    · rename_i inside
      cases resolved
      cases stop with
      | none =>
        refine ⟨Nat.lt_of_not_le inside, ?_, ?_, ?_⟩
        · rw [RangeSpec.positions, Option.getD_none, Nat.min_self]
        · rw [Option.getD_none]
          omega
        · omega
      | some stop =>
        have before := ordered first stop rfl
        refine ⟨Nat.lt_of_not_le inside, rfl, ?_, ?_⟩
        · rw [Option.getD_some]
          omega
        · omega
  | suffix count =>
    cases count with
    | zero => cases resolved
    | succ count =>
      cases resolved
      refine ⟨Nat.succ_pos count, ?_, ?_, ?_⟩
      · rw [RangeSpec.positions, Prod.mk.injEq]
        exact ⟨by omega, rfl⟩
      · omega
      · omega

/-- Ranges resolve exactly where they are satisfiable in a content that is not empty. -/
theorem resolve_isSome_iff (spec : RangeSpec) (total : Nat) :
    (spec.resolve total).isSome = true ↔ spec.Satisfiable total ∧ total ≠ 0 := by
  unfold RangeSpec.resolve
  by_cases empty : total = 0
  · simp [empty]
  rw [if_neg empty]
  cases spec with
  | offset start stop =>
    by_cases beyond : total ≤ start
    · simp [beyond, RangeSpec.Satisfiable]
    · simp [beyond, empty, RangeSpec.Satisfiable, Nat.lt_of_not_le beyond]
  | suffix count => cases count <;> simp [empty, RangeSpec.Satisfiable]

/-- The part of a content between two positions. -/
theorem slice_of_positions {content : Content} (ordered : first ≤ last)
    (inside : last < content.octets.length) (fits : content.octets.length < 2 ^ 64) :
    content.slice ⟨first, some last⟩ = some (.ok { content with
      octets := (content.octets.drop first).take (last - first + 1) }) := by
  have next : succU64 last = some (last + 1) := if_pos (by omega)
  have start : min first content.octets.length = first := by omega
  have stop : min (last + 1) content.octets.length = last + 1 := by omega
  have count : last + 1 - first = last - first + 1 := by omega
  rw [Content.slice, ByteRange.stopIn]
  dsimp only
  rw [next, Option.map_some, Option.map_some, start, stop, if_neg (by omega), count]

/-! ## Answers -/

theorem body_setHeader (msg : Message) (name value : Str) :
    (msg.setHeader name value).body = msg.body := by
  unfold Message.setHeader
  split <;> rfl

theorem streamed_body (content : Content) : content.body.streamed = .ok content.octets := by
  show Except.ok (content.octets ++ []) = Except.ok content.octets
  rw [List.append_nil]

theorem isVisibleAscii_contentRange (first last total : Nat) :
    isVisibleAscii (contentRange first last total) = true := by
  have shape : contentRange first last total = ("bytes " : Str) ++ natStr first ++
      (['-'] ++ natStr last) ++ (['/'] ++ natStr total) := rfl
  have texts : isVisibleAscii ("bytes " : Str) = true ∧ isVisibleAscii ['-'] = true ∧
      isVisibleAscii ['/'] = true := by decide
  simp only [shape, isVisibleAscii_append, isVisibleAscii_natStr, texts, Bool.and_self]

section Responses

variable (template : Message) (range : Option RangeSpec) (ifRange : Option Str) (content : Content)

/-- The answer with the whole content. -/
theorem serveContent_whole :
    (serveContent template ⟨range, none, ifRange⟩ content none).status = some 200 ∧
      (serveContent template ⟨range, none, ifRange⟩ content none).body = some content.body := by
  have plain : ifNoneMatchHits none content.etag = false := rfl
  rw [serveContent]
  dsimp only
  rw [plain, if_neg Bool.false_ne_true]
  refine ⟨?_, ?_⟩
  · rw [status_setHeader, status_setHeader, status_setHeader]
    rfl
  · rw [body_setHeader, body_setHeader, body_setHeader]
    rfl

/-- The answer with a part of the content. -/
theorem serveContent_part (first last total : Nat) :
    let response := serveContent template ⟨range, none, ifRange⟩ content (some (first, last, total))
    response.status = some 206 ∧ response.body = some content.body ∧
      response.header "content-range" = some (contentRange first last total) := by
  have plain : ifNoneMatchHits none content.etag = false := rfl
  intro response
  have shape : response = (((((template.response 206 (some content.body)).setHeader
      "content-range" (contentRange first last total)).setHeader "accept-ranges" "bytes").setHeader
      "etag" content.etag).setHeader "last-modified" content.lastModified) := rfl
  rw [shape]
  refine ⟨?_, ?_, ?_⟩
  · rw [status_setHeader, status_setHeader, status_setHeader, status_setHeader]
    rfl
  · rw [body_setHeader, body_setHeader, body_setHeader, body_setHeader]
    rfl
  · rw [header_setHeader_of_ne (by decide), header_setHeader_of_ne (by decide),
      header_setHeader_of_ne (by decide)]
    exact header_setHeader_self (isVisibleAscii_contentRange first last total) _ _

theorem status_rangeNotSatisfiable (codec : Codec) (total : Nat) :
    (rangeNotSatisfiable codec template total).status = some 416 := by
  rw [rangeNotSatisfiable, status_setHeader, status_setHeader]
  rfl

end Responses

section File

variable {host : ReadHost} {template : Message} {tenant path : Str} {full : PathBuf}
  {file : FileContent} {disk : Disk}

theorem metadata_of_file {disk : Disk} {full : PathBuf} {file : FileContent}
    (undotted : full.getLast? ≠ some ['.']) (found : disk.tree.file? (locate full) = some file) :
    disk.metadata full = .ok ⟨file.octets.length, false⟩ := by
  rw [Disk.metadata, if_neg (FileTree.not_mem_dirs found), found]
  exact if_neg undotted

variable (resolved : resolve tenant path = .ok full) (undotted : full.getLast? ≠ some ['.'])
  (found : disk.tree.file? (locate full) = some file)

include resolved undotted found

theorem readRange_of_file (range : Option ByteRange) :
    readRange host tenant path range disk =
      range.elim (some (.ok (host.contentOf path file))) (host.contentOf path file).slice := by
  rw [readRange, resolved]
  dsimp only
  rw [LocalFs.metaOf, metadata_of_file undotted found]
  dsimp only [Except.mapError]
  rw [if_neg Bool.false_ne_true, found]
  cases range <;> rfl

theorem head_of_file :
    LocalFs.head tenant path disk = .ok ⟨file.octets.length, false⟩ := by
  show (resolve tenant path).bind (fun full => LocalFs.metaOf full disk) = _
  rw [resolved]
  show LocalFs.metaOf full disk = _
  rw [LocalFs.metaOf, metadata_of_file undotted found]
  rfl

/-- A header that is not read as a range is answered with the whole content. -/
theorem serveFile_ignored (conds : ReadConditions) (unread : conds.range = none) :
    serveFile host template conds tenant path disk =
      some (.ok (serveContent template conds (host.contentOf path file) none)) := by
  rw [serveFile, unread]
  dsimp only
  rw [serveWhole, readRange_of_file resolved undotted found]
  rfl

/-- A range that does not resolve is refused. -/
theorem serveFile_refused (conds : ReadConditions) (read : conds.range = some spec)
    (unresolved : spec.resolve file.octets.length = none) :
    serveFile host template conds tenant path disk =
      some (.ok (rangeNotSatisfiable host.codec template file.octets.length)) := by
  rw [serveFile, read]
  dsimp only
  rw [head_of_file resolved undotted found]
  dsimp only
  rw [unresolved]

/-- A range that resolves is answered with its part, or with the whole content where the
caller's part is of another one. -/
theorem serveFile_resolved (fits : file.octets.length < 2 ^ 64) (conds : ReadConditions)
    (read : conds.range = some spec)
    (positions : spec.resolve file.octets.length = some (first, last)) (ordered : first ≤ last)
    (inside : last < file.octets.length) :
    serveFile host template conds tenant path disk =
      some (.ok (if isStale conds.ifRange (host.contentOf path file) then
        serveContent template conds (host.contentOf path file) none
      else
        serveContent template conds { host.contentOf path file with
          octets := (file.octets.drop first).take (last - first + 1) }
          (some (first, last, file.octets.length)))) := by
  rw [serveFile, read]
  dsimp only
  rw [head_of_file resolved undotted found]
  dsimp only
  rw [positions]
  dsimp only
  have sliced : (host.contentOf path file).slice ⟨first, some last⟩ =
      some (.ok { host.contentOf path file with
        octets := (file.octets.drop first).take (last - first + 1) }) :=
    slice_of_positions ordered inside fits
  rw [readRange_of_file resolved undotted found, Option.elim_some, sliced, Option.bind_some]
  dsimp only
  have sameTags : isStale conds.ifRange { host.contentOf path file with
      octets := (file.octets.drop first).take (last - first + 1) } =
      isStale conds.ifRange (host.contentOf path file) := rfl
  rw [sameTags]
  split
  · rw [serveWhole, readRange_of_file resolved undotted found]
    rfl
  · rfl

end File

/-! ## Exact answers -/

section Exact

variable {content : Content} {header : Str} {ifRange : Option Str} {response : Message}

/-- The whole content is an exact answer where it is asked for. -/
theorem exact_of_whole (status : response.status = some 200)
    (body : response.body = some content.body) :
    RangeAnswer content header ifRange response ↔
      200 = rangeStatus content.octets.length (rangeAsked header ifRange content) := by
  rw [← Option.some.injEq, ← status]
  refine ⟨RangeAnswer.status, fun asked => ⟨asked, fun isPart => ?_, fun _ => ?_⟩⟩
  · cases status.symm.trans isPart
  · exact ⟨content.body, body, streamed_body content⟩

/-- A refusal is an exact answer where it is asked for. -/
theorem exact_of_refusal (status : response.status = some 416) :
    RangeAnswer content header ifRange response ↔
      416 = rangeStatus content.octets.length (rangeAsked header ifRange content) := by
  rw [← Option.some.injEq, ← status]
  refine ⟨RangeAnswer.status, fun asked => ⟨asked, fun isPart => ?_, fun isWhole => ?_⟩⟩
  · cases status.symm.trans isPart
  · cases status.symm.trans isWhole

/-- The part that the service resolves a range to is an exact answer where a part is asked for. -/
theorem exact_of_part {body : Body} (read : parseRange header = some spec)
    (positions : spec.resolve content.octets.length = some (first, last))
    (status : response.status = some 206) (sent : response.body = some body)
    (octets : body.streamed = .ok ((content.octets.drop first).take (last - first + 1)))
    (size : body.size = some (last - first + 1)) (range : response.header "content-range" =
      some (contentRange first last content.octets.length)) :
    RangeAnswer content header ifRange response ↔
      206 = rangeStatus content.octets.length (rangeAsked header ifRange content) := by
  rw [← Option.some.injEq, ← status]
  refine ⟨RangeAnswer.status, fun asked => ⟨asked, fun _ => ?_, fun isWhole => ?_⟩⟩
  · cases wanted : rangeAsked header ifRange content with
    | none =>
      rw [wanted, status] at asked
      cases asked
    | some other =>
      have strict : rfcRange header = some other := by
        unfold rangeAsked at wanted
        split at wanted
        · cases wanted
        · exact wanted
      obtain ⟨-, -, rfl⟩ := (parseRange_iff strict spec).mp read
      obtain ⟨-, same, ordered, inside⟩ := resolve_eq_some
        (fun start stop shape => ordered_of_parseRange (shape ▸ read)) positions
      exact ⟨other, first, last, rfl, same, ordered, inside, range, body, sent, octets, size⟩
  · cases status.symm.trans isWhole

end Exact

/-! ## The status of the service -/

/-- The status that the service answers a header with: a range that does not resolve is refused,
whether or not the caller's part is of this content. -/
def servedStatus (total : Nat) (stale : Bool) : Option RangeSpec → Nat
  | none => 200
  | some spec => if (spec.resolve total).isSome then if stale then 200 else 206 else 416

/-- The service answers with the status that is asked for exactly where the header is regular. -/
theorem servedStatus_eq_iff (header : Str) (ifRange : Option Str) (content : Content) :
    servedStatus content.octets.length (isStale ifRange content) (parseRange header) =
        rangeStatus content.octets.length (rangeAsked header ifRange content) ↔
      RegularRange header (isStale ifRange content) content.octets.length := by
  unfold rangeAsked RegularRange
  generalize content.octets.length = total
  cases isStale ifRange content with
  | true =>
    rw [if_pos rfl, if_pos rfl]
    cases parseRange header with
    | none => simp [servedStatus, rangeStatus]
    | some spec =>
      have resolves := resolve_isSome_iff spec total
      by_cases served : spec.Satisfiable total ∧ total ≠ 0
      · simp [servedStatus, rangeStatus, resolves.mpr served, served]
      · simp [servedStatus, rangeStatus, resolves, served]
  | false =>
    rw [if_neg Bool.false_ne_true, if_neg Bool.false_ne_true]
    cases strict : rfcRange header with
    | none =>
      cases parseRange header with
      | none => simp [servedStatus, rangeStatus]
      | some spec =>
        cases resolved : (spec.resolve total).isSome <;>
          simp [servedStatus, rangeStatus, resolved]
    | some spec =>
      have same := parseRange_iff strict
      have resolves := resolve_isSome_iff spec total
      refine Iff.trans ?_ ⟨fun regular => ⟨fun other isOther => ?_, nofun⟩,
        fun regular => regular.1 spec rfl⟩
      case refine_2 =>
        cases isOther
        exact regular
      by_cases lax : ("bytes=" : Str) <+: header ∧ spec.Fits
      · rw [(same spec).mpr ⟨lax.1, lax.2, rfl⟩, iff_true_left lax]
        simp only [servedStatus, rangeStatus, resolves]
        split_ifs <;> tauto
      · -- Where the service reads the header as a range, it reads this one.
        have unread : parseRange header = none :=
          Option.eq_none_iff_forall_ne_some.mpr fun other read =>
            lax ⟨((same other).mp read).1, ((same other).mp read).2.1⟩
        rw [unread, iff_false_left lax, not_not]
        simp only [servedStatus, rangeStatus]
        split_ifs <;> tauto

/-- Surroundings with one media type and one time. -/
def plainReadHost : ReadHost where
  codec := Tagged.codec
  forPath := fun _ => .json
  formatTime := fun _ => "Thu, 01 Jan 1970 00:00:00 GMT"

/-- A disk with the file a alone. -/
def oneFile (octets : Octets) : Disk :=
  ⟨LocalFs.fileTree octets, []⟩

/-- A GET of the file a with a range. -/
def serveRange (octets : Octets) (header : Str) (ifRange : Option Str) : Checked Message :=
  serveFile plainReadHost (FileService.requestTo .get "/a" []) ⟨parseRange header, none, ifRange⟩
    "t" "/a" (oneFile octets)

/-- The status of an answer. -/
def statusOf (result : Checked Message) : Option Nat :=
  (result.bind Except.toOption).bind Message.status

/-- An answer with another status than the one asked for is not exact. -/
theorem not_exact_of_status {content : Content} {header : Str} {ifRange : Option Str}
    {result : Checked Message} (other : statusOf result ≠
      some (rangeStatus content.octets.length (rangeAsked header ifRange content))) :
    ¬ RangeExact content header ifRange result := by
  rintro ⟨response, rfl, exact_⟩
  exact other exact_.status

end Rs2Runtime.Services
