import Rs2Runtime.Message.Basic

/-!
Contract: the request headers and parameters that every store service reads alike.

Owns:
- entity-tag comparison of `If-Match` and `If-None-Match`;
- the precondition of a store write;
- pagination parameters.
-/

namespace Rs2Runtime.Services

open Text

/-- Drop every leading weak-validator mark, at most `turns` of them. -/
def dropWeak : Nat → Str → Str
  | 0, tag => tag
  | turns + 1, tag =>
    match stripStart "W/" tag with
    | some rest => dropWeak turns rest
    | none => tag

/-- Whether a list of entity tags names the current one; a star names any. -/
def ifMatchHits (header etag : Str) : Bool :=
  ((header.splitOn ',').map trim).any fun candidate =>
    candidate = "*" || dropWeak candidate.length candidate = etag

/-- Whether `If-None-Match` names the current entity tag. -/
def ifNoneMatchHits (header : Option Str) (etag : Str) : Bool :=
  match header with
  | none => false
  | some tags => ifMatchHits tags etag

/-- The condition a write is made under. -/
inductive WritePrecondition where
  | none
  | ifMatch (want : Str)
  | ifNoneMatchStar
  deriving DecidableEq, Repr

/-- Read the conditional headers; create-only takes precedence over `If-Match`. -/
def writePrecondition (msg : Message) : WritePrecondition :=
  let createOnly :=
    match msg.header "if-none-match" with
    | some tags => ((tags.splitOn ',').map trim).any fun tag => tag = "*"
    | Option.none => false
  if createOnly then
    .ifNoneMatchStar
  else
    match msg.header "if-match" with
    | some want => .ifMatch want
    | Option.none => .none

/-- `$take` and `$skip` with bounded defaults. -/
def pagination (msg : Message) : Nat × Nat :=
  (min (((msg.url.queryParam "$take").bind parseU64).getD 1000) 10000,
    ((msg.url.queryParam "$skip").bind parseU64).getD 0)

end Rs2Runtime.Services
