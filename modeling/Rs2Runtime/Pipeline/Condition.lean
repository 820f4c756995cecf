import Rs2Runtime.Json.Same
import Rs2Runtime.Message.Basic

/-!
Contract: the condition language of pipeline steps.

Owns:
- its syntax and parser, with the parser's messages;
- evaluation over a message and the pipeline's variables.
-/

namespace Rs2Runtime.Pipeline.Condition

open Text Data Json

inductive CmpOp where
  | eq
  | ne
  | lt
  | gt
  | le
  | ge
  deriving DecidableEq, Repr

/-- Message accessors. -/
inductive Builtin where
  | status
  | ok
  | method
  | mime
  | isJson
  | isText
  | isBinary
  | name
  | isDirectory
  deriving DecidableEq, Repr

/-- The accessors under their names, in the order the parser lists them. -/
def builtins : List (Str × Builtin) :=
  [("status", .status), ("ok", .ok), ("method", .method), ("mime", .mime),
    ("isJson", .isJson), ("isText", .isText), ("isBinary", .isBinary), ("name", .name),
    ("isDirectory", .isDirectory)]

inductive Expr where
  | literal (value : Value)
  | builtin (accessor : Builtin)
  | var (name : Str) (path : List Str)
  | header (name : Str)
  | not (operand : Expr)
  | and (left right : Expr)
  | or (left right : Expr)
  | cmp (left : Expr) (op : CmpOp) (right : Expr)
  deriving DecidableEq, Repr

/-! ## Parsing -/

def isAsciiWhitespace (c : Char) : Bool :=
  c == ' ' || c == '\t' || c == '\n' || c == '\r' || c.toNat == 12

def skipWs (s : Str) : Str :=
  s.dropWhile isAsciiWhitespace

/-- What follows a token after white space. -/
def eat (token s : Str) : Option Str :=
  stripStart token (skipWs s)

def isIdentChar (c : Char) : Bool :=
  c.isAlphanum || c == '_'

def ident (s : Str) : Except Str (Str × Str) :=
  let name := s.takeWhile isIdentChar
  if name = [] then .error "expected identifier" else .ok (name, s.dropWhile isIdentChar)

/-- Dotted names after a variable; each turn consumes a dot. -/
def identPath : Nat → Str → Except Str (List Str × Str)
  | 0, s => .ok ([], s)
  | turns + 1, s =>
    match s with
    | '.' :: rest => do
        let (name, rest) ← ident rest
        let (names, rest) ← identPath turns rest
        return (name :: names, rest)
    | _ => .ok ([], s)

/-- A decimal as the value of a binary64 literal; one that overflows is null. -/
def numberLiteral (negative : Bool) (whole fraction : Str) : Value :=
  let digits : Int := Nat.ofDigitChars 10 (whole ++ fraction) 0
  let number := Number.float (if negative then -digits else digits) (-fraction.length)
  let double := number.asF64
  if 2 ^ 53 ≤ double.significand.natAbs ∧ 971 ≤ double.exponent ∨ 971 < double.exponent then
    .null
  else
    .num number

/-- A number literal: digits with at most one point, and at least one digit. -/
def number (s : Str) : Except Str (Value × Str) :=
  let negative : Bool := s.head? = some '-'
  let unsigned := if negative then s.tail else s
  let body := unsigned.takeWhile fun c => c.isDigit || c == '.'
  let rest := unsigned.dropWhile fun c => c.isDigit || c == '.'
  let text := if negative then '-' :: body else body
  match body.splitOn '.' with
  | [whole] =>
    if whole = [] then .error (("bad number '" : Str) ++ text ++ ("'" : Str))
    else .ok (numberLiteral negative whole [], rest)
  | [whole, fraction] =>
    if whole ++ fraction = [] then .error (("bad number '" : Str) ++ text ++ ("'" : Str))
    else .ok (numberLiteral negative whole fraction, rest)
  | _ => .error (("bad number '" : Str) ++ text ++ ("'" : Str))

/-- A quoted text. -/
def quoted (quote : Char) (s : Str) : Except Str (Str × Str) :=
  match splitOnce [quote] s with
  | some (text, rest) => .ok (text, rest)
  | none => .error "unterminated string"

def unknownIdentifier (name : Str) : Str :=
  ("unknown identifier '" : Str) ++ name ++ ("' (builtins: " : Str) ++
    join ", " (builtins.map Prod.fst) ++ (")" : Str)

/-- The first octet of a character as a character of its own. -/
def firstOctet (c : Char) : Char :=
  Char.ofNat ((encodeChar c).headD 0).toNat

/-- Comparison operators in the order the parser tries them. -/
def operators : List (Str × CmpOp) :=
  [("==", .eq), ("!=", .ne), ("<=", .le), (">=", .ge), ("<", .lt), (">", .gt)]

mutual

/-- A disjunction.  Every call consumes fuel; the length of the input bounds the nesting. -/
def parseExpr : Nat → Str → Except Str (Expr × Str)
  | 0, _ => .error "expression too deep"
  | fuel + 1, s => do
      let (left, rest) ← parseAnd fuel s
      parseOrTail fuel left rest

def parseOrTail : Nat → Expr → Str → Except Str (Expr × Str)
  | 0, _, _ => .error "expression too deep"
  | fuel + 1, left, s =>
    match eat "||" s with
    | some rest => do
        let (right, rest) ← parseAnd fuel rest
        parseOrTail fuel (.or left right) rest
    | none => .ok (left, skipWs s)

/-- A conjunction. -/
def parseAnd : Nat → Str → Except Str (Expr × Str)
  | 0, _ => .error "expression too deep"
  | fuel + 1, s => do
      let (left, rest) ← parseUnary fuel s
      parseAndTail fuel left rest

def parseAndTail : Nat → Expr → Str → Except Str (Expr × Str)
  | 0, _, _ => .error "expression too deep"
  | fuel + 1, left, s =>
    match eat "&&" s with
    | some rest => do
        let (right, rest) ← parseUnary fuel rest
        parseAndTail fuel (.and left right) rest
    | none => .ok (left, skipWs s)

/-- A negation, but not the start of an inequality. -/
def parseUnary : Nat → Str → Except Str (Expr × Str)
  | 0, _ => .error "expression too deep"
  | fuel + 1, s =>
    match skipWs s with
    | '!' :: rest =>
      if rest.head? = some '=' then
        parseCmp fuel ('!' :: rest)
      else do
        let (operand, rest) ← parseUnary fuel rest
        return (.not operand, rest)
    | s => parseCmp fuel s

/-- A comparison, or a primary alone. -/
def parseCmp : Nat → Str → Except Str (Expr × Str)
  | 0, _ => .error "expression too deep"
  | fuel + 1, s => do
      let (left, rest) ← parsePrimary fuel s
      match operators.findSome? fun op => (eat op.1 rest).map fun after => (op.2, after) with
      | none => return (left, skipWs rest)
      | some (op, after) =>
        let (right, rest) ← parsePrimary fuel after
        return (.cmp left op right, rest)

def parsePrimary : Nat → Str → Except Str (Expr × Str)
  | 0, _ => .error "expression too deep"
  | fuel + 1, s =>
    match skipWs s with
    | [] => .error "unexpected end of expression"
    | c :: rest =>
      if c = '(' then do
        let (inner, rest) ← parseExpr fuel rest
        match eat ")" rest with
        | some rest => return (inner, rest)
        | none => .error "expected ')'"
      else if c = '\'' ∨ c = '"' then do
        let (text, rest) ← quoted c rest
        return (.literal (.str text), rest)
      else if c = '$' then do
        let (name, rest) ← ident rest
        let (path, rest) ← identPath rest.length rest
        return (.var name path, rest)
      else if c.isDigit ∨ c = '-' then do
        let (value, rest) ← number (c :: rest)
        return (.literal value, rest)
      else if c.isAlpha ∨ c = '_' then do
        let (name, rest) ← ident (c :: rest)
        if name = "true" then return (.literal (.bool true), rest)
        else if name = "false" then return (.literal (.bool false), rest)
        else if name = "null" then return (.literal .null, rest)
        else if name = "header" then
          match eat "(" rest with
          | none => .error "header requires '(\"name\")'"
          | some rest => do
              let (argument, rest) ← parsePrimary fuel rest
              match eat ")" rest with
              | none => .error "expected ')' after header argument"
              | some rest =>
                match argument with
                | .literal (.str text) => return (.header text, rest)
                | _ => .error "header argument must be a string literal"
        else
          match OrderedMap.get? builtins name with
          | some accessor => return (.builtin accessor, rest)
          | none => .error (unknownIdentifier name)
      else
        .error (("unexpected character '" : Str) ++ [firstOctet c] ++ ("'" : Str))

end

/-- Parse a whole condition. -/
def parse (source : Str) : Except Str Expr := do
  let (expr, rest) ← parseExpr (8 * (source.length + 1)) source
  if skipWs rest = [] then
    return expr
  else
    .error (("unexpected input at position " : Str) ++
      natStr (utf8Len source - utf8Len (skipWs rest)))

/-! ## Evaluation -/

def truthy : Value → Bool
  | .null => false
  | .bool value => value
  | .num value => value.asF64.significand ≠ 0
  | .str value => value ≠ []
  | .arr items => items ≠ []
  | .obj _ => true

/-- The order of two numbers or two texts. -/
def order : Value → Value → Option Ordering
  | .num left, .num right => some (left.asF64.cmp right.asF64)
  | .str left, .str right => some (compareOfLessAndEq left right)
  | _, _ => none

def compare (left : Value) (op : CmpOp) (right : Value) : Bool :=
  match op with
  | .eq => ((order left right).map (· == .eq)).getD (left.same right)
  | .ne => ((order left right).map (· != .eq)).getD (!left.same right)
  | .lt => order left right = some .lt
  | .gt => order left right = some .gt
  | .le => order left right = some .lt ∨ order left right = some .eq
  | .ge => order left right = some .gt ∨ order left right = some .eq

def evalBuiltin (msg : Message) : Builtin → Value
  | .status => RsError.natValue (msg.status.getD 200)
  | .ok => .bool msg.isOk
  | .method => .str msg.method.name
  | .mime => (msg.body.map fun body => Value.str body.mediaType.essence).getD .null
  | .isJson => .bool (msg.body.any fun body => body.mediaType.isJson)
  | .isText => .bool (msg.body.any fun body => body.mediaType.isText)
  | .isBinary => .bool (msg.body.any fun body => !body.mediaType.isJson && !body.mediaType.isText)
  | .name => (msg.name.map Value.str).getD .null
  | .isDirectory => .bool msg.url.isDirectory

/-- Walk a path below a value; null where a member is missing. -/
def member (value : Value) : List Str → Value
  | [] => value
  | key :: keys => member ((value.get? key).getD .null) keys

def eval (msg : Message) (vars : Object) : Expr → Value
  | .literal value => value
  | .builtin accessor => evalBuiltin msg accessor
  | .var name path => member ((vars.get? name).getD .null) path
  | .header name => ((msg.header (toAsciiLowercase name)).map Value.str).getD .null
  | .not operand => .bool (!truthy (eval msg vars operand))
  | .and left right => .bool (truthy (eval msg vars left) && truthy (eval msg vars right))
  | .or left right => .bool (truthy (eval msg vars left) || truthy (eval msg vars right))
  | .cmp left op right => .bool (compare (eval msg vars left) op (eval msg vars right))

/-- Parse and evaluate a condition. -/
def passes (source : Str) (msg : Message) (vars : Object) : Except RsError Bool :=
  match parse source with
  | .error message => .error (.badRequest message)
  | .ok expr => .ok (truthy (eval msg vars expr))

example : parse "$order.total > 4 && !ok" =
    .ok (.and (.cmp (.var "order" ["total".toList]) .gt (.literal (.num (.float 4 0))))
      (.not (.builtin .ok))) := by
  decide +kernel

end Rs2Runtime.Pipeline.Condition
