import Rs2Runtime.Data.Outcome
import Rs2Runtime.Router.Mounts
import Rs2Runtime.Text.Escaping

/-!
Contract: the `webSocket` configuration of a mount.

Owns:
- what a mount's configuration says about its socket surface, with its defaults and errors.
-/

namespace Rs2Runtime.Guest

open Text Data Data.Outcome Json Router

/-! ## Configuration -/

inductive SocketEvent where
  | opened
  | message
  | closed
  deriving DecidableEq, Repr

def SocketEvent.parse (name : Str) : Option SocketEvent :=
  if name = "open" then some .opened
  else if name = "message" then some .message
  else if name = "close" then some .closed
  else none

/-- How a text frame is typed. -/
inductive TextMode where
  | json
  | text
  deriving DecidableEq, Repr

structure WebSocketConfig where
  text : TextMode
  events : List SocketEvent
  deriving DecidableEq, Repr

def badConfig (detail : Str) : RsError :=
  .badRequest (("invalid 'webSocket' config: " : Str) ++ detail)

/-- What a mount has that only says `true`. -/
def WebSocketConfig.default (service : Str) : WebSocketConfig where
  text := .json
  events :=
    if ("code:" : Str) <+: service then [.opened, .message, .closed] else [.message]

def readTextMode (value : Value) : Except RsError TextMode :=
  if value = .str "json" then .ok .json
  else if value = .str "text" then .ok .text
  else .error (badConfig "'text' must be \"json\" or \"text\"")

def readEvent (codec : Codec) (value : Value) : Except RsError SocketEvent :=
  match value.asStr.bind SocketEvent.parse with
  | some event => .ok event
  | none =>
    .error (badConfig (("unknown event '" : Str) ++ value.asStr.getD (codec.print value) ++
      ("' (one of: open, message, close)" : Str)))

def readEvents (codec : Codec) (value : Value) : Except RsError (List SocketEvent) :=
  match value.asArray with
  | none => .error (badConfig "'events' must be an array")
  | some items => do
      let read ← items.mapM (readEvent codec)
      let seen := read.foldl (fun seen event => if event ∈ seen then seen else seen ++ [event]) []
      if seen = [] then .error (badConfig "'events' must name at least one event") else .ok seen

/-- A member of a configuration object, read where it is present. -/
def readMember {α : Type} (fields : Object) (key : Str) (read : Value → Except RsError α)
    (absent : α) : Except RsError α :=
  match fields.get? key with
  | some value => read value
  | none => .ok absent

/-- Normalize a mount's `webSocket` value. -/
def parseWebSocketConfig (codec : Codec) (value : Option Value) (service : Str) :
    Except RsError (Option WebSocketConfig) :=
  match value with
  | none | some .null | some (.bool false) => .ok none
  | some (.bool true) => .ok (some (.default service))
  | some (.obj fields) =>
    match (fields.map Prod.fst).find? fun (key : Str) =>
        key ≠ "text" ∧ key ≠ "events" with
    | some key =>
      .error (badConfig
        (("unknown field `" : Str) ++ key ++ ("`, expected `text` or `events`" : Str)))
    | none => do
        let mode ← readMember fields "text" readTextMode (WebSocketConfig.default service).text
        let events ← readMember fields "events" (readEvents codec)
          (WebSocketConfig.default service).events
        return some ⟨mode, events⟩
  | some _ => .error (badConfig "expected `true` or an object \x7btext, events\x7d")

/-- The configuration of a routed mount; none when it has no socket surface. -/
def webSocketConfigOf (codec : Codec) (config : Value) (service : Str) :
    Option WebSocketConfig :=
  (parseWebSocketConfig codec (config.get? "webSocket") service).toOption.bind id

end Rs2Runtime.Guest
