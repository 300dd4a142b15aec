import TagQuery.Expr.Basic
import TagQuery.Expr.TagContext
import TagQuery.Number.Literal

namespace TagQuery

inductive EvalError
  | nonNumericTagValue (key : String)
deriving DecidableEq, Repr

namespace EvalError

def code : EvalError → String
  | .nonNumericTagValue _ => "E070"

def message : EvalError → String
  | .nonNumericTagValue key => "Tag '" ++ key ++ "' has a value that is not a number"

end EvalError

def TagPath.holds (path : TagPath) (context : TagContext) : Bool :=
  match path.keyAndValue with
  | (key, some value) => context.get? key = some value
  | (key, none) => context.contains key

namespace Expr

/-- A comparison of a key that is absent does not hold and is no error. -/
def evalComparison (key : TagPath) (op : Comparison) (operand : Float) (context : TagContext) :
    Except EvalError Bool :=
  match context.get? key.text with
  | none => .ok false
  | some value =>
    match Number.ofTagValue? value with
    | some number => .ok (op.holds number operand)
    | none => .error (.nonNumericTagValue key.text)

/-- Whether an expression holds of some tags. The right operand of `and` and of `or` counts only
    where the left one leaves the result open. -/
def eval (context : TagContext) : Expr → Except EvalError Bool
  | .predicate path => .ok (path.holds context)
  | .comparison key op operand => evalComparison key op operand context
  | .and left right =>
    match left.eval context with
    | .ok true => right.eval context
    | decided => decided
  | .or left right =>
    match left.eval context with
    | .ok false => right.eval context
    | decided => decided
  | .not inner => (inner.eval context).map Bool.not
  | .group inner => inner.eval context

end Expr

end TagQuery
