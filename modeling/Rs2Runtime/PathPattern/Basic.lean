import Rs2Runtime.Message.Basic

/-!
Contract: path patterns, texts with placeholders over a URL view and a data map.

Owns:
- the placeholder grammar: selectors, literals, data paths, optional marks and defaults;
- evaluation of placeholders;
- resolution of a whole pattern, and its validation.
-/

namespace Rs2Runtime.PathPattern

open Text Data Json

/-- The URL plane a pattern reads. -/
structure UrlView where
  path : List Str
  base : List Str
  name : Option Str
  query : Str
  rest : Str
  deriving DecidableEq, Repr

/-- A view without a URL plane. -/
def UrlView.empty : UrlView := ⟨[], [], none, [], []⟩

/-! ## Syntax -/

/-- The segment lists a selector indexes. -/
inductive Section where
  | path
  | base
  | full
  deriving DecidableEq, Repr

/-- A position or a slice of a segment list. -/
inductive Index where
  | at (position : Int)
  | slice (start stop : Option Int)
  deriving DecidableEq, Repr

/-- A selector over the URL plane. -/
inductive UrlSel where
  | segments (section_ : Section) (index : Option Index)
  | name
  | rest
  | queryAll
  | queryKey (key : Str)
  deriving DecidableEq, Repr

/-- A placeholder expression. -/
inductive Expr where
  | literal (text : Str)
  | url (selector : UrlSel)
  | data (path : Str)
  deriving DecidableEq, Repr

/-- The parsed interior of a placeholder. -/
structure ParsedToken where
  primary : Expr
  optional : Bool
  fallback : Option Expr
  deriving DecidableEq, Repr

/-- What a placeholder contributes. -/
inductive Token where
  | value (text : Str)
  | elide
  deriving DecidableEq, Repr

/-- The two characters that open a placeholder. -/
def openMark : Str := ['$', '\x7b']

/-- The character that closes a placeholder. -/
def closeMark : Str := ['\x7d']

def parseInt (s : Str) : Except Str Int :=
  match parseI64 (trim s) with
  | some value => .ok value
  | none => .error (("'" : Str) ++ s ++ ("' is not an integer index" : Str))

def parseOptInt (s : Str) : Except Str (Option Int) :=
  if trim s = [] then .ok none else (parseInt (trim s)).map some

def parseIndex (tail : Str) : Except Str Index :=
  match (stripStart "[" tail).bind (stripEnd "]") with
  | none =>
    .error (("malformed index '" : Str) ++ tail ++ ("' (expected [n], [-1], or [a:b])" : Str))
  | some inner =>
    match splitOnce [':'] inner with
    | some (start, stop) =>
      (parseOptInt start).bind fun start =>
        (parseOptInt stop).map fun stop => .slice start stop
    | none => (parseInt inner).map .at

def requireEmpty (tail what : Str) : Except Str Unit :=
  if tail = [] then .ok () else .error (what ++ (" takes no index or key" : Str))

def parseUrlSel (s : Str) : Except Str UrlSel :=
  match stripStart "url." s with
  | none =>
    .error (("'" : Str) ++ s ++
      ("': use url.path / url.base / url.full / url.name / url.query" : Str))
  | some rest =>
    let head := rest.takeWhile fun c => !(c == '.' || c == '[')
    let tail := rest.dropWhile fun c => !(c == '.' || c == '[')
    if head = "name" then
      (requireEmpty tail "url.name").map fun _ => .name
    else if head = "rest" then
      (requireEmpty tail "url.rest").map fun _ => .rest
    else if head = "query" then
      if tail = [] then
        .ok .queryAll
      else
        match stripStart "." tail with
        | some key =>
          if key = [] ∨ key.any (fun c => c == '.' || c == '[') then
            .error (("'" : Str) ++ s ++ ("': expected url.query.<key>" : Str))
          else
            .ok (.queryKey key)
        | none =>
          .error (("'" : Str) ++ s ++ ("': query takes a .<key>, not an index" : Str))
    else if head = "path" ∨ head = "base" ∨ head = "full" then
      let section_ : Section :=
        if head = "path" then .path else if head = "base" then .base else .full
      if tail = [] then
        .ok (.segments section_ none)
      else
        (parseIndex tail).map fun index => .segments section_ (some index)
    else
      .error (("'" : Str) ++ s ++ ("': unknown url section '" : Str) ++ head ++ ("'" : Str))

def parseExpr (s : Str) : Except Str Expr :=
  if s = [] then
    .error "empty placeholder"
  else
    match (stripStart "'" s).bind (stripEnd "'") with
    | some inner => .ok (.literal inner)
    | none =>
      if s = "url" ∨ ("url." : Str) <+: s then
        (parseUrlSel s).map .url
      else
        .ok (.data s)

/-- Parse a placeholder interior: a primary, an optional mark, and a default after the
first double bar. -/
def parseToken (interior : Str) : Except Str ParsedToken :=
  let sources : Str × Option Str :=
    match splitOnce "||" interior with
    | some (primary, fallback) => (trim primary, some (trim fallback))
    | none => (trim interior, none)
  let marked : Str × Bool :=
    match stripEnd "?" sources.1 with
    | some unmarked => (unmarked.rdropWhile isWhitespace, true)
    | none => (sources.1, false)
  (parseExpr marked.1).bind fun primary =>
    match sources.2 with
    | none => .ok ⟨primary, marked.2, none⟩
    | some source => (parseExpr source).map fun fallback => ⟨primary, marked.2, some fallback⟩

/-! ## Evaluation -/

/-- Segments joined by slashes; none for the empty list. -/
def joinNonempty (segments : List Str) : Option Str :=
  if segments = [] then none else some (join "/" segments)

def normIndex (position : Int) (length : Nat) : Option Nat :=
  let index := if position < 0 then length + position else position
  if 0 ≤ index ∧ index < length then some index.toNat else none

def normBound (bound : Int) (length : Nat) : Nat :=
  (max 0 (min (if bound < 0 then length + bound else bound) length)).toNat

/-- The first value of a key in a raw query, decoded. -/
def queryGet (query key : Str) : Option Str :=
  ((((query.splitOn '&').filter (· ≠ [])).map MsgUrl.queryPair).find? (·.1 = key)).map
    fun pair => MsgUrl.decodeQueryValue pair.2

def evalUrl (selector : UrlSel) (url : UrlView) : Option Str :=
  match selector with
  | .name => url.name.filter (· ≠ [])
  | .rest => if url.rest = [] then none else some url.rest
  | .queryAll => if url.query = [] then none else some url.query
  | .queryKey key => queryGet url.query key
  | .segments section_ index =>
    let segments :=
      match section_ with
      | .path => url.path
      | .base => url.base
      | .full => url.base ++ url.path
    match index with
    | none => joinNonempty segments
    | some (.at position) =>
      (normIndex position segments.length).bind fun index => segments[index]?
    | some (.slice start stop) =>
      let first := normBound (start.getD 0) segments.length
      let last := normBound (stop.getD segments.length) segments.length
      if last ≤ first then none else joinNonempty ((segments.take last).drop first)

/-- Walk a dot path below a value. -/
def walk (value : Value) : List Str → Option Value
  | [] => some value
  | key :: keys =>
    match value with
    | .obj fields => (OrderedMap.get? fields key).bind fun next => walk next keys
    | _ => none

/-- The text of a data value; nothing for null. -/
def valueText (codec : Codec) : Value → Option Str
  | .null => none
  | .str text => some text
  | other => some (codec.print other)

/-- The value of a data path that starts at a name; null counts as nothing. -/
def resolveData (data : Object) (name : Str) (keys : List Str) : Option Value :=
  ((data.get? name).bind fun value => walk value keys).filter (· ≠ .null)

/-- The value at a dot path of the data map. -/
def evalData (codec : Codec) (path : Str) (data : Object) : Option Str :=
  match path.splitOn '.' with
  | [] => none
  | head :: keys =>
    (resolveData data head keys).bind (valueText codec)

def evalExpr (codec : Codec) (expr : Expr) (url : UrlView) (data : Object) : Option Str :=
  match expr with
  | .literal text => some text
  | .data path => evalData codec path data
  | .url selector => evalUrl selector url

/-- Evaluate a placeholder interior: a non-empty primary, else the default, else nothing if
it is marked optional. -/
def evalToken (codec : Codec) (interior : Str) (url : UrlView) (data : Object) :
    Except Str Token :=
  (parseToken interior).bind fun parsed =>
    match (evalExpr codec parsed.primary url data).filter (· ≠ []) with
    | some text => .ok (.value text)
    | none =>
      match parsed.fallback with
      | some fallback => .ok (.value ((evalExpr codec fallback url data).getD []))
      | none =>
        if parsed.optional then
          .ok .elide
        else
          .error (("'" : Str) ++ interior ++
            ("' resolved to nothing (mark it optional with `?` or give a `|| default`)" :
              Str))

/-! ## Patterns -/

/-- Remove one trailing slash. -/
def popSlash (out : Str) : Str :=
  if out.getLast? = some '/' then out.dropLast else out

theorem popSlash_append_slash (out : Str) : popSlash (out ++ ['/']) = out := by
  simp [popSlash]

/-- The error of a placeholder that is never closed. -/
def unterminated (pattern : Str) : RsError :=
  .badRequest (("unterminated $\x7b…\x7d in '" : Str) ++ pattern ++ ("'" : Str))

/-- The error of a placeholder that does not parse or evaluate. -/
def inPattern (pattern message : Str) : RsError :=
  .badRequest (("in pattern '" : Str) ++ pattern ++ ("': " : Str) ++ message)

/-- The resolution loop: `out` is built, `rest` is still to be read.  Each turn consumes a
placeholder, so the length of `rest` bounds the turns. -/
def resolveLoop (codec : Codec) (pattern : Str) (url : UrlView) (data : Object) :
    Nat → Str → Str → Except RsError Str
  | 0, out, rest => .ok (out ++ rest)
  | turns + 1, out, rest =>
    match splitOnce openMark rest with
    | none => .ok (out ++ rest)
    | some (before, after) =>
      match splitOnce closeMark after with
      | none => .error (unterminated pattern)
      | some (interior, remaining) =>
        match evalToken codec interior url data with
        | .error message => .error (inPattern pattern message)
        | .ok (.value text) =>
          resolveLoop codec pattern url data turns (out ++ before ++ text) remaining
        | .ok .elide =>
          resolveLoop codec pattern url data turns (popSlash (out ++ before)) remaining

/-- Resolve every placeholder of a pattern. -/
def resolve (codec : Codec) (pattern : Str) (url : UrlView) (data : Object) :
    Except RsError Str :=
  resolveLoop codec pattern url data pattern.length [] pattern

/-- The validation loop. -/
def validateLoop (pattern : Str) : Nat → Str → Except RsError Unit
  | 0, _ => .ok ()
  | turns + 1, rest =>
    match splitOnce openMark rest with
    | none => .ok ()
    | some (_, after) =>
      match splitOnce closeMark after with
      | none => .error (unterminated pattern)
      | some (interior, remaining) =>
        match parseToken interior with
        | .error message => .error (inPattern pattern message)
        | .ok _ => validateLoop pattern turns remaining

/-- Check that every placeholder parses. -/
def validate (pattern : Str) : Except RsError Unit :=
  validateLoop pattern pattern.length pattern

end Rs2Runtime.PathPattern
