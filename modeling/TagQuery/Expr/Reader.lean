import TagQuery.Expr.Basic
import TagQuery.Limits
import TagQuery.Token.Cursor

namespace TagQuery

inductive ParseError
  | unexpectedToken (offset : Nat) (found expected : String)
  | unbalancedParens (offset : Nat)
  | emptyExpression (offset : Nat)
  | invalidOperand (offset : Nat) (found : String)
  | trailingTokens (offset : Nat) (found : String)
  | nestingTooDeep (offset depth limit : Nat)
deriving DecidableEq, Repr

namespace ParseError

def offset : ParseError → Nat
  | .unexpectedToken offset _ _ | .unbalancedParens offset | .emptyExpression offset
  | .invalidOperand offset _ | .trailingTokens offset _ | .nestingTooDeep offset _ _ => offset

def code : ParseError → String
  | .unexpectedToken .. => "E050"
  | .unbalancedParens .. => "E042"
  | .emptyExpression .. => "E041"
  | .invalidOperand .. => "E044"
  | .trailingTokens .. => "E043"
  | .nestingTooDeep .. => "E051"

def message : ParseError → String
  | .unexpectedToken offset found expected =>
    s!"Unexpected {found} at offset {offset}: expected {expected}"
  | .unbalancedParens offset => s!"Unbalanced parenthesis at offset {offset}"
  | .emptyExpression offset => s!"Empty expression at offset {offset}"
  | .invalidOperand offset found =>
    s!"Invalid comparison operand {found} at offset {offset}: expected a single number"
  | .trailingTokens offset found => s!"Unexpected {found} at offset {offset} after complete expression"
  | .nestingTooDeep offset depth limit =>
    s!"Nesting depth {depth} exceeds maximum {limit} at offset {offset}"

end ParseError

/-- What a stretch of source outside of all inner parentheses has given so far, up to the operand
    that is being read: the operands of `or` before it, joined; the operands of `and` since the
    last `or`, joined; and the `not`s in front of it. -/
structure Level where
  ors : Option Expr := none
  ands : Option Expr := none
  nots : Nat := 0
deriving DecidableEq, Repr

namespace Level

def join (op : Expr → Expr → Expr) (chain : Option Expr) (operand : Expr) : Expr :=
  match chain with
  | none => operand
  | some left => op left operand

def negate : Nat → Expr → Expr
  | 0, operand => operand
  | nots + 1, operand => .not (negate nots operand)

def conjunction (level : Level) (operand : Expr) : Expr :=
  join .and level.ands (negate level.nots operand)

def value (level : Level) (operand : Expr) : Expr := join .or level.ors (level.conjunction operand)

end Level

/-- A level that waits for the parenthesis opened at `offset` to be closed. -/
structure Enclosing where
  level : Level
  offset : Nat
deriving DecidableEq, Repr

/-- What the token before the current one leaves to be done. -/
inductive Phase
  | start
  | operand
  | opened (offset : Nat)
  | tag
  | point (path : List String)
  | path (path : List String)
  | comparison (key : List String) (op : Comparison)
  | comparisonPoint (key : List String) (op : Comparison)
  | compared (key : List String) (op : Comparison) (operand : Float)
  | comparedPoint
  | closed (group : Expr)
deriving DecidableEq, Repr

/-- The reader of expressions takes one token at a time. All that it has read is in the current
    level, the levels around it and the phase. -/
structure Reader where
  level : Level := {}
  outer : List Enclosing := []
  phase : Phase := .start
deriving DecidableEq, Repr

namespace Reader

def depth (reader : Reader) : Nat :=
  reader.outer.foldl (fun depth enclosing => depth + enclosing.level.nots + 1) reader.level.nots

def checkDepth (limit offset : Nat) (reader : Reader) : Except ParseError Reader :=
  if reader.depth ≤ limit then .ok reader else .error (.nestingTooDeep offset reader.depth limit)

def unexpected (token : Spanned Token) (expected : String) : ParseError :=
  .unexpectedToken token.offset token.value.describe expected

def invalidOperand (token : Spanned Token) : ParseError :=
  .invalidOperand token.offset token.value.describe

def beginOperand (limit : Nat) (reader : Reader) (token : Spanned Token) :
    Except ParseError Reader :=
  match token.value with
  | .keyword .not =>
    checkDepth limit token.offset
      { reader with level.nots := reader.level.nots + 1, phase := .operand }
  | .opening =>
    .ok
      { level := {}
        outer := ⟨reader.level, token.offset⟩ :: reader.outer
        phase := .opened token.offset }
  | .word text =>
    if text = tagWord then .ok { reader with phase := .tag } else .error (unexpected token "'tag'")
  | .number .. | .dot => .error (unexpected token "'tag'")
  | .closing =>
    if reader.outer.isEmpty then .error (.unbalancedParens token.offset)
    else .error (unexpected token "expression")
  | .keyword _ | .eof => .error (unexpected token "expression")

def afterOperand (reader : Reader) (operand : Expr) (token : Spanned Token) :
    Except ParseError Reader :=
  match token.value with
  | .keyword .and =>
    .ok
      { reader with
        level := { reader.level with ands := some (reader.level.conjunction operand), nots := 0 }
        phase := .operand }
  | .keyword .or =>
    .ok { reader with level := { ors := some (reader.level.value operand) }, phase := .operand }
  | .closing =>
    match reader.outer with
    | [] => .error (.unbalancedParens token.offset)
    | enclosing :: outer =>
      .ok ⟨enclosing.level, outer, .closed (.group (reader.level.value operand))⟩
  | _ =>
    if reader.outer.isEmpty then .error (.trailingTokens token.offset token.value.describe)
    else .error (unexpected token "')'")

def readSegment (reader : Reader) (path : List String) (token : Spanned Token) :
    Except ParseError Reader :=
  match token.value.segment? with
  | none => .error (unexpected token "tag path segment")
  | some segment =>
    match (if path.isEmpty then none else Comparison.ofWord? segment) with
    | some op => .ok { reader with phase := .comparison path op }
    | none => .ok { reader with phase := .path (path ++ [segment]) }

/-- Reads a token that is not the end marker. A group counts for the nesting limit once it is seen
    to hold something. -/
def read (limit : Nat) (reader : Reader) (token : Spanned Token) : Except ParseError Reader :=
  match reader.phase with
  | .start | .operand => reader.beginOperand limit token
  | .opened offset =>
    if token.value = .closing then .error (.emptyExpression offset)
    else do (← reader.checkDepth limit offset).beginOperand limit token
  | .tag =>
    if token.value = .dot then .ok { reader with phase := .point [] }
    else .error (unexpected token "'.'")
  | .point path => reader.readSegment path token
  | .path path =>
    if token.value = .dot then .ok { reader with phase := .point path }
    else reader.afterOperand (.predicate ⟨path⟩) token
  | .comparison key op =>
    if token.value = .dot then .ok { reader with phase := .comparisonPoint key op }
    else .error (invalidOperand token)
  | .comparisonPoint key op =>
    match token.value with
    | .number _ operand => .ok { reader with phase := .compared key op operand }
    | _ => .error (invalidOperand token)
  | .compared key op operand =>
    if token.value = .dot then .ok { reader with phase := .comparedPoint }
    else reader.afterOperand (.comparison ⟨key⟩ op operand) token
  | .comparedPoint => .error (invalidOperand token)
  | .closed group => reader.afterOperand group token

def complete (reader : Reader) (operand : Expr) : Except ParseError Expr :=
  match reader.outer with
  | [] => .ok (reader.level.value operand)
  | enclosing :: _ => .error (.unbalancedParens enclosing.offset)

def finish (reader : Reader) (offset : Nat) : Except ParseError Expr :=
  match reader.phase with
  | .start => .error (.emptyExpression offset)
  | .operand => .error (.unexpectedToken offset Token.eof.describe "expression")
  | .opened opening => .error (.unbalancedParens opening)
  | .tag => .error (.unexpectedToken offset Token.eof.describe "'.'")
  | .point _ => .error (.unexpectedToken offset Token.eof.describe "tag path segment")
  | .path path => reader.complete (.predicate ⟨path⟩)
  | .comparison .. | .comparisonPoint .. | .comparedPoint =>
    .error (.invalidOperand offset Token.eof.describe)
  | .compared key op operand => reader.complete (.comparison ⟨key⟩ op operand)
  | .closed group => reader.complete group

def run (limit endOffset : Nat) : Reader → List (Spanned Token) → Except ParseError Expr
  | reader, [] => reader.finish endOffset
  | reader, token :: rest =>
    if token.value.isEof then reader.finish token.offset
    else
      match reader.read limit token with
      | .ok next => next.run limit endOffset rest
      | .error error => .error error

end Reader

def Expr.ofTokens (limit : Nat) (tokens : List (Spanned Token)) : Except ParseError Expr :=
  Reader.run (Limits.clampNesting limit) (Cursor.endOffset tokens) {} tokens

end TagQuery
