import TagQuery.Expr.Basic
import TagQuery.Limits
import TagQuery.Number.Literal
import TagQuery.Token.Keyword

namespace TagQuery

inductive ValidityError
  | emptyTagPath
  | nonFiniteOperand (key : String) (value : Float)
  | invalidSegment (segment : String)
  | nestingTooDeep (depth limit : Nat)
deriving DecidableEq, Repr

namespace ValidityError

def code : ValidityError → String
  | .emptyTagPath => "E060"
  | .nonFiniteOperand .. => "E061"
  | .invalidSegment .. => "E062"
  | .nestingTooDeep .. => "E063"

def message : ValidityError → String
  | .emptyTagPath => "Tag path is empty"
  | .nonFiniteOperand key value =>
    "Comparison operand for tag '" ++ key ++ "' is not a finite number: " ++ Number.text value
  | .invalidSegment segment => "Invalid tag path segment '" ++ segment ++ "'"
  | .nestingTooDeep depth limit => s!"Nesting depth {depth} exceeds maximum {limit}"

end ValidityError

def isSegment (segment : String) : Bool :=
  match segment.toList with
  | [] => false
  | first :: rest =>
    if first.isAlpha || first = '_' then rest.all fun c => c.isAlphanum || c = '_' || c = '-'
    else Number.isLiteral (first :: rest)

/-- Whether a segment can stand at a place of a path and be read back as itself. After the first
    segment the comparison words cannot. -/
def TagPath.allows (first : Bool) (segment : String) : Bool :=
  isSegment segment && !isReserved segment && (first || (Comparison.ofWord? segment).isNone)

def TagPath.check (path : TagPath) : Except ValidityError Unit :=
  match path.segments with
  | [] => .error .emptyTagPath
  | first :: rest =>
    if TagPath.allows true first then
      match rest.find? fun segment => !TagPath.allows false segment with
      | some segment => .error (.invalidSegment segment)
      | none => .ok ()
    else .error (.invalidSegment first)

namespace Expr

/-- Looks for the first fault of an expression that stands inside `depth` groups and negations, from
    the root to the leaves and from left to right. -/
def checkUnder (limit depth : Nat) : Expr → Except ValidityError Unit
  | .predicate path => path.check
  | .comparison key _ operand => do
    key.check
    if Number.isFinite operand then .ok () else .error (.nonFiniteOperand key.text operand)
  | .and left right | .or left right => do
    left.checkUnder limit depth
    right.checkUnder limit depth
  | .not inner | .group inner =>
    if depth + 1 ≤ limit then inner.checkUnder limit (depth + 1)
    else .error (.nestingTooDeep (depth + 1) limit)

def check (limit : Nat) (expr : Expr) : Except ValidityError Unit :=
  expr.checkUnder (Limits.clampNesting limit) 0

end Expr

end TagQuery
