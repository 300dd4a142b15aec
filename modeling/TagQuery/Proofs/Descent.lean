import TagQuery.Expr.Reader

namespace TagQuery

/-- A recursive descent in the middle of its work: its place, the groups and negations around it and the parentheses
    that are open. -/
structure Descent where
  cursor : Cursor
  depth : Nat := 0
  opened : Nat := 0

/-- A part of the descent. It leaves its place behind even where it fails. -/
abbrev Parsing (α : Type) := EStateM ParseError Descent α

namespace Parsing

def advance : Parsing Unit := fun descent => .ok () { descent with cursor := descent.cursor.advance }

def accept (expected : Token) : Parsing Bool := fun descent =>
  .ok (descent.cursor.accept expected).1 { descent with cursor := (descent.cursor.accept expected).2 }

def unexpected {α : Type} (expected : String) : Parsing α := fun descent =>
  .error (.unexpectedToken descent.cursor.offset descent.cursor.token.describe expected) descent

def invalidOperand {α : Type} : Parsing α := fun descent =>
  .error (.invalidOperand descent.cursor.offset descent.cursor.token.describe) descent

def enter (limit offset : Nat) : Parsing Unit := fun descent =>
  let deeper := { descent with depth := descent.depth + 1 }
  if deeper.depth ≤ limit then .ok () deeper else .error (.nestingTooDeep offset deeper.depth limit) deeper

def leave : Parsing Unit := fun descent => .ok () { descent with depth := descent.depth - 1 }

def opening : Parsing Unit := fun descent => .ok () { descent with opened := descent.opened + 1 }

def closing : Parsing Unit := fun descent => .ok () { descent with opened := descent.opened - 1 }

def expectDot : Parsing Unit := do
  if ← accept .dot then return () else unexpected "'.'"

def segment : Parsing String := do
  match (← get).cursor.token.segment? with
  | some text => do
    advance
    return text
  | none => unexpected "tag path segment"

def comparison (key : List String) (op : Comparison) : Parsing Expr := do
  if ← accept .dot then
    match (← get).cursor.token with
    | .number _ operand => do
      advance
      if ← accept .dot then invalidOperand else return .comparison ⟨key⟩ op operand
    | _ => invalidOperand
  else invalidOperand

def condition : Nat → List String → Parsing Expr
  | 0, path => return .predicate ⟨path⟩
  | turns + 1, path => do
    if ← accept .dot then
      let next ← segment
      match Comparison.ofWord? next with
      | some op => comparison path op
      | none => condition turns (path ++ [next])
    else return .predicate ⟨path⟩

def tag (turns : Nat) : Parsing Expr := do
  advance
  expectDot
  let first ← segment
  condition turns [first]

def chained (joining : Keyword) (join : Expr → Expr → Expr) (item : Parsing Expr) : Nat → Expr → Parsing Expr
  | 0, left => return left
  | turns + 1, left => do
    if ← accept (.keyword joining) then
      let right ← item
      chained joining join item turns (join left right)
    else return left

def chain (joining : Keyword) (join : Expr → Expr → Expr) (item : Parsing Expr) (turns : Nat) : Parsing Expr := do
  let first ← item
  chained joining join item turns first

def expression (operand : Parsing Expr) (turns : Nat) : Parsing Expr := chain .or .or (chain .and .and operand turns) turns

def beginNot (limit : Nat) : Parsing Unit := do
  let offset := (← get).cursor.offset
  advance
  enter limit offset

def beginGroup (limit : Nat) : Parsing Nat := do
  let offset := (← get).cursor.offset
  advance
  match (← get).cursor.token with
  | .closing => throw (.emptyExpression offset)
  | .eof => throw (.unbalancedParens offset)
  | _ => do
    enter limit offset
    opening
    return offset

def endGroup (offset : Nat) (inner : Expr) : Parsing Expr := do
  match (← get).cursor.token with
  | .closing => do
    advance
    closing
    leave
    return .group inner
  | .eof => throw (.unbalancedParens offset)
  | _ => unexpected "')'"

/-- One operand. Every call inside it stands behind a token, so as many calls do as there are tokens. -/
def operand (limit : Nat) : Nat → Parsing Expr
  | 0 => unexpected "expression"
  | turns + 1 => do
    let descent ← get
    match descent.cursor.token with
    | .keyword .not => do
      beginNot limit
      let inner ← operand limit turns
      leave
      return .not inner
    | .opening => do
      let offset ← beginGroup limit
      let inner ← expression (operand limit turns) turns
      endGroup offset inner
    | .word text => if text = tagWord then tag turns else unexpected "'tag'"
    | .number .. | .dot => unexpected "'tag'"
    | .closing => if descent.opened = 0 then throw (.unbalancedParens descent.cursor.offset) else unexpected "expression"
    | .keyword _ | .eof => unexpected "expression"

def parse (limit turns : Nat) : Parsing Expr := do
  let start := (← get).cursor
  if start.isAtEnd then throw (.emptyExpression start.offset)
  else
    let expr ← expression (operand limit turns) turns
    let stop := (← get).cursor
    match stop.token with
    | .eof => return expr
    | .closing => throw (.unbalancedParens stop.offset)
    | other => throw (.trailingTokens stop.offset other.describe)

end Parsing

def Descent.parse (limit : Nat) (tokens : List (Spanned Token)) : EStateM.Result ParseError Descent Expr :=
  Parsing.parse (Limits.clampNesting limit) tokens.length { cursor := ⟨tokens, 0⟩ }

end TagQuery
