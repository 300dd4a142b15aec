import TagQuery.Expr.Basic
import TagQuery.Number.Decimal

namespace TagQuery.Expr

/-- The canonical source of an expression. Parentheses are written for groups alone, so what a source
    was read to is written back with its own parentheses. -/
def text : Expr → String
  | .predicate path => "tag." ++ path.text
  | .comparison key op operand =>
    "tag." ++ key.text ++ "." ++ op.word ++ "." ++ Number.text operand
  | .and left right => left.text ++ " and " ++ right.text
  | .or left right => left.text ++ " or " ++ right.text
  | .not inner => "not " ++ inner.text
  | .group inner => "(" ++ inner.text ++ ")"

end TagQuery.Expr
