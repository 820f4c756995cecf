import Rs2Runtime.Message.Basic

/-!
Contract: the role model that authorizes every request.

Owns:
- the action a method maps to and the default chain between actions;
- evaluation of role specifications, with path-scoped grants;
- mount access, deferred for the execution surface of pipeline mounts;
- operator roles.
-/

namespace Rs2Runtime

open Text Data Json

/-- A binding of a service and its configuration to a path of a tenant. -/
structure Mount where
  basePath : Str
  service : Str
  config : Value
  deriving DecidableEq, Repr

namespace Wrapper

/-- The kinds of access that a role specification distinguishes. -/
inductive Action where
  | read
  | write
  | delete
  | invoke
  deriving DecidableEq, Repr

/-- The action a request's method maps to. -/
def actionFor : Method → Action
  | .get | .head | .options => .read
  | .put | .patch => .write
  | .delete => .delete
  | .post | .connect | .trace | .extension _ => .invoke

/-- A string member of a role object. -/
def roleMember (spec : Object) (key : Str) : Option Str :=
  (spec.get? key).bind Value.asStr

/-- The role specification that gates an action, with its defaults. -/
def resolveRole (spec : Object) (action : Action) : Str :=
  let write := (roleMember spec "write").getD "A"
  match action with
  | .read => (roleMember spec "read").getD "all"
  | .delete => (roleMember spec "delete").getD write
  | .invoke => (roleMember spec "invoke").getD write
  | .write => write

/-- Whether the caller holds a role. -/
def holdsRole (principal : Option Principal) (role : Str) : Bool :=
  if role = "all" then true
  else if role = "authenticated" then principal.isSome
  else
    match principal with
    | some p => p.roles.contains role
    | none => false

/-- A path pattern with the caller's id and string claims filled in. -/
def resolveScope (principal : Option Principal) (pattern : Str) : Str :=
  match principal with
  | none => pattern
  | some p =>
    p.extra.foldl
      (fun resolved claim =>
        match claim.2 with
        | .str text => replaceAll ('\x7b' :: claim.1 ++ ['\x7d']) text resolved
        | _ => resolved)
      (replaceAll "\x7bemail\x7d" p.id pattern)

/-- Whether a path is the scope or lies below it. -/
def inScope (scope path : Str) : Bool :=
  path = scope || (scope ++ ['/']).isPrefixOf path

/-- Evaluate the tokens of a role specification; a token that starts with a slash scopes
the role before it. -/
def satisfiesTokens (principal : Option Principal) (path : Str) : List Str → Bool
  | [] => false
  | [role] => holdsRole principal role
  | role :: next :: rest =>
    if next.head? = some '/' then
      (holdsRole principal role && inScope (resolveScope principal next) path) ||
        satisfiesTokens principal path rest
    else
      holdsRole principal role || satisfiesTokens principal path (next :: rest)

/-- Evaluate a role specification against the caller and the service path. -/
def satisfiesRoleSpec (spec : Str) (msg : Message) : Bool :=
  satisfiesTokens msg.principal msg.url.servicePath (words spec)

/-- Evaluate an access value for one action. -/
def checkRoleSpec (access : Value) (action : Action) (msg : Message) : Except RsError Unit :=
  if msg.source = .system then
    .ok ()
  else
    match access with
    | .str policy =>
      if policy = "open" then
        .ok ()
      else if policy = "authenticated" then
        if msg.principal.isSome then
          .ok ()
        else
          .error (.unauthorized "this mount requires authentication")
      else
        .error (.internal
          (("unknown access policy '" : Str) ++ policy ++ ("'" : Str)))
    | .obj spec =>
      let roleSpec := resolveRole spec action
      if satisfiesRoleSpec roleSpec msg then
        .ok ()
      else if msg.principal.isNone then
        .error (.unauthorized "this mount requires authentication")
      else
        .error (.forbidden
          (("principal lacks a role satisfying '" : Str) ++ roleSpec ++ ("' for " : Str) ++
            msg.method.name))
    | _ => .error (.internal "invalid 'access' config")

/-- Hold a request to the access of its mount, for an explicit action.  A mount without a
policy denies everyone. -/
def checkMountAccess (msg : Message) (mount : Mount) (action : Action) : Except RsError Unit :=
  match mount.config.get? "access" with
  | some access => checkRoleSpec access action msg
  | none =>
    if msg.principal.isSome then
      .error (.forbidden "this mount has no access policy configured")
    else
      .error (.unauthorized "this mount has no access policy configured")

/-- Whether a path enters the instruction plane: its first service segment starts with a
dot. -/
def isInstructionPath (url : MsgUrl) : Bool :=
  match url.serviceSegments with
  | [] => false
  | first :: _ => first.head? = some '.'

/-- The host's check before a service is invoked.  A pipeline mount checks its execution
surface itself. -/
def checkAccess (msg : Message) (mount : Mount) : Except RsError Unit :=
  if mount.service = "pipeline" ∧ !isInstructionPath msg.url then
    .ok ()
  else
    checkMountAccess msg mount (actionFor msg.method)

/-- Whether a principal holds one of the tenant's operator roles. -/
def isOperator (principal : Option Principal) (operatorRoles : Str) : Bool :=
  match principal with
  | none => false
  | some p => (words operatorRoles).any fun role => p.roles.contains role

end Wrapper

end Rs2Runtime
