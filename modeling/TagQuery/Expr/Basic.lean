namespace TagQuery

structure TagPath where
  segments : List String
deriving BEq, DecidableEq, Repr

namespace TagPath

def text (path : TagPath) : String := ".".intercalate path.segments

/-- The key that a condition looks up and the value it asks for. A single segment is a key whose
    value does not matter; otherwise the last segment is the value. -/
def keyAndValue (path : TagPath) : String × Option String :=
  match path.segments with
  | first :: second :: rest =>
    (".".intercalate ((first :: second :: rest).dropLast), (second :: rest).getLast?)
  | _ => (path.text, none)

end TagPath

inductive Comparison
  | greater
  | less
  | atLeast
  | atMost
deriving DecidableEq, Repr

namespace Comparison

def word : Comparison → String
  | .greater => "gt"
  | .less => "lt"
  | .atLeast => "ge"
  | .atMost => "le"

def symbol : Comparison → String
  | .greater => ">"
  | .less => "<"
  | .atLeast => ">="
  | .atMost => "<="

def ofWord? (word : String) : Option Comparison :=
  [greater, less, atLeast, atMost].find? fun comparison => word = comparison.word

def holds (comparison : Comparison) (left right : Float) : Bool :=
  match comparison with
  | .greater => right < left
  | .less => left < right
  | .atLeast => right ≤ left
  | .atMost => left ≤ right

end Comparison

/-- A filter expression. Groups are the parentheses of the source; they do not change the meaning. -/
inductive Expr
  | predicate (path : TagPath)
  | comparison (key : TagPath) (op : Comparison) (operand : Float)
  | and (left right : Expr)
  | or (left right : Expr)
  | not (inner : Expr)
  | group (inner : Expr)
deriving BEq, DecidableEq, Repr

namespace Expr

def isLeaf : Expr → Bool
  | .predicate _ | .comparison _ _ _ => true
  | _ => false

def stripGroups : Expr → Expr
  | .predicate path => .predicate path
  | .comparison key op operand => .comparison key op operand
  | .and left right => .and left.stripGroups right.stripGroups
  | .or left right => .or left.stripGroups right.stripGroups
  | .not inner => .not inner.stripGroups
  | .group inner => inner.stripGroups

end Expr

end TagQuery
