import Rs2Runtime.Adapters.LocalFs
import Rs2Runtime.Message.Headers
import Rs2Runtime.Services.Conditional

/-!
Contract: how the file service serves one stored file.

Owns:
- reading a file of the local store, whole or in a range of positions;
- single byte ranges, their reading and their resolution against a size, and `If-Range`;
- serving a file with its validators, revalidation and ranges.

Does not own: the table of media types by extension or the text of times, which are parameters,
or the paths that a request stands for.
-/

namespace Rs2Runtime.Services

open Text Data Json Capabilities Adapters

/-! ## Reading -/

/-- What a read gives: octets with their media type, content version and formatted time of
modification. -/
structure Content where
  octets : Octets
  mediaType : MediaType
  version : Str
  lastModified : Str
  deriving DecidableEq

/-- Inclusive byte positions. -/
structure ByteRange where
  start : Nat
  stop : Option Nat
  deriving DecidableEq, Repr

/-- What reading takes from its surroundings: JSON text, the media type of a path and the text
of a time. -/
structure ReadHost where
  codec : Codec
  forPath : Str → MediaType
  formatTime : Nat → Str

/-- A result, or none where the arithmetic of 64-bit integers overflows. -/
abbrev Checked (α : Type) : Type :=
  Option (Except RsError α)

/-- The next 64-bit integer. -/
def succU64 (n : Nat) : Option Nat :=
  if n + 1 < 2 ^ 64 then some (n + 1) else none

/-- Where the part of a range stops in a file. -/
def ByteRange.stopIn (range : ByteRange) (total : Nat) : Option Nat :=
  match range.stop with
  | some last => (succU64 last).map fun next => min next total
  | none => some total

/-- The part of a content in a range. -/
def Content.slice (content : Content) (range : ByteRange) : Checked Content :=
  let total := content.octets.length
  let start := min range.start total
  (range.stopIn total).map fun stop =>
    if stop ≤ start then
      .error (.new 416 .badRequest "Range Not Satisfiable"
        (("range start " : Str) ++ natStr start ++ (" beyond resource size " : Str) ++
          natStr total))
    else
      .ok { content with octets := (content.octets.drop start).take (stop - start) }

/-- The content of a stored file. -/
def ReadHost.contentOf (host : ReadHost) (path : Str) (file : FileContent) : Content where
  octets := file.octets
  mediaType := host.forPath path
  version := natStr file.modified ++ '-' :: natStr file.octets.length
  lastModified := host.formatTime file.modified

/-- Read a file of the local store, whole or in a range. -/
def readRange (host : ReadHost) (tenant path : Str) (range : Option ByteRange) (disk : Disk) :
    Checked Content :=
  match resolve tenant path with
  | .error e => some (.error e)
  | .ok full =>
    match LocalFs.metaOf full disk with
    | .error e => some (.error e)
    | .ok found =>
      if found.isDir then
        some (.error (.badRequest "path is a directory"))
      else
        match disk.tree.file? (locate full), range with
        | none, _ => some (.error IoError.notFound.toRsError)
        | some file, none => some (.ok (host.contentOf path file))
        | some file, some range => (host.contentOf path file).slice range

/-! ## Ranges -/

/-- A single range, before it is resolved against a size. -/
inductive RangeSpec where
  | offset (start : Nat) (stop : Option Nat)
  | suffix (count : Nat)
  deriving DecidableEq, Repr

/-- First and last position in a resource; none when the range is unsatisfiable. -/
def RangeSpec.resolve (spec : RangeSpec) (total : Nat) : Option (Nat × Nat) :=
  if total = 0 then none
  else
    match spec with
    | .offset start stop =>
      if total ≤ start then none
      else some (start, min (stop.getD (total - 1)) (total - 1))
    | .suffix 0 => none
    | .suffix count => some (total - count, total - 1)

/-- The range between two texts of positions, each read by `number`. -/
def rangeBetween (number : Str → Option Nat) (first last : Str) : Option RangeSpec :=
  if first = [] then
    (number last).map .suffix
  else
    (number first).bind fun start =>
      if last = [] then
        some (.offset start none)
      else
        (number last).bind fun stop =>
          if stop < start then none else some (.offset start (some stop))

/-- Read a `Range` header; what is not understood is ignored. -/
def parseRange (header : Str) : Option RangeSpec :=
  (stripStart "bytes=" header).bind fun spec =>
    if ',' ∈ spec then none
    else
      (splitOnce ['-'] spec).bind fun parts =>
        rangeBetween parseU64 (trim parts.1) (trim parts.2)

/-- Whether `If-Range` still names what is served; an entity tag is compared strongly. -/
def ifRangeMatches (ifRange : Str) (etag lastModified : Str) : Bool :=
  let value := trim ifRange
  if (stripStart "W/" value).isSome then false
  else if value.head? = some '"' then etag = value
  else lastModified = value

/-- The conditional headers of one read. -/
structure ReadConditions where
  range : Option RangeSpec
  ifNoneMatch : Option Str
  ifRange : Option Str
  deriving DecidableEq, Repr

/-! ## Serving a file -/

/-- The quoted content version. -/
def Content.etag (content : Content) : Str :=
  '"' :: content.version ++ ['"']

/-- A content as a body. -/
def Content.body (content : Content) : Body where
  payload := .stream [.ok content.octets]
  mediaType := content.mediaType
  size := some content.octets.length

/-- The text of a served range. -/
def contentRange (first last total : Nat) : Str :=
  ("bytes " : Str) ++ natStr first ++ '-' :: natStr last ++ '/' :: natStr total

/-- The whole content, or the part of it from `first` to `last` of `total`. -/
def contentResponse (template : Message) (content : Content) (part : Option (Nat × Nat × Nat)) :
    Message :=
  match part with
  | some (first, last, total) =>
    (template.response 206 (some content.body)).setHeader "content-range"
      (contentRange first last total)
  | none => template.ok (some content.body)

/-- Serve a content with its validators; a caller whose copy is current gets no body. -/
def serveContent (template : Message) (conds : ReadConditions) (content : Content)
    (part : Option (Nat × Nat × Nat)) : Message :=
  let resp := (((contentResponse template content part).setHeader "accept-ranges" "bytes").setHeader
    "etag" content.etag).setHeader "last-modified" content.lastModified
  if ifNoneMatchHits conds.ifNoneMatch content.etag then
    (((resp.response 304 none).setHeader "etag" content.etag).setHeader "last-modified"
      content.lastModified).setHeader "accept-ranges" "bytes"
  else
    resp

def rangeNotSatisfiable (codec : Codec) (template : Message) (total : Nat) : Message :=
  let refusal := RsError.new 416 .badRequest "Range Not Satisfiable"
    (("no satisfiable byte range in the request for a " : Str) ++ natStr total ++
      ("-byte resource" : Str))
  ((template.errorResponse codec refusal).setHeader "content-range"
    (("bytes */" : Str) ++ natStr total)).setHeader "accept-ranges" "bytes"

/-- Whether the caller's part is of another content. -/
def isStale (ifRange : Option Str) (content : Content) : Bool :=
  ifRange.any fun value => !ifRangeMatches value content.etag content.lastModified

/-- Serve the whole of a stored file. -/
def serveWhole (host : ReadHost) (template : Message) (conds : ReadConditions) (tenant path : Str)
    (disk : Disk) : Checked Message :=
  (readRange host tenant path none disk).map fun outcome =>
    outcome.map fun content => serveContent template conds content none

/-- Serve one stored file. -/
def serveFile (host : ReadHost) (template : Message) (conds : ReadConditions) (tenant path : Str)
    (disk : Disk) : Checked Message :=
  match conds.range with
  | none => serveWhole host template conds tenant path disk
  | some spec =>
    match LocalFs.head tenant path disk with
    | .error e => some (.error e)
    | .ok found =>
      match spec.resolve found.size with
      | none => some (.ok (rangeNotSatisfiable host.codec template found.size))
      | some (first, last) =>
        (readRange host tenant path (some ⟨first, some last⟩) disk).bind fun outcome =>
          match outcome with
          | .error e => some (.error e)
          | .ok content =>
            if isStale conds.ifRange content then
              serveWhole host template conds tenant path disk
            else
              some (.ok (serveContent template conds content (some (first, last, found.size))))

end Rs2Runtime.Services
