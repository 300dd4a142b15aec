import TagQuery.Expr.Eval
import TagQuery.Expr.Printer
import TagQuery.Expr.Shape
import TagQuery.Filter.Error

namespace TagQuery

inductive NonNumericPolicy
  | noMatch
  | error
deriving DecidableEq, Repr

namespace NonNumericPolicy

def setting : NonNumericPolicy → String
  | .noMatch => "no_match"
  | .error => "error"

def ofSetting? : String → Option NonNumericPolicy
  | "no_match" => some .noMatch
  | "error" => some .error
  | _ => none

/-- Reads a policy by one of its names in any case. No letter outside of ASCII has a lower case that
    is part of a name. -/
def ofText? (text : String) : Option NonNumericPolicy :=
  match String.ofList (text.toList.map Char.toLower) with
  | "nomatch" | "false" => some .noMatch
  | "strict" => some .error
  | name => ofSetting? name

end NonNumericPolicy

structure Filter where
  source : String
  expr : Expr
  shape : Shape
deriving DecidableEq, Repr

namespace Filter

def ofExpr (source : String) (expr : Expr) : Filter := ⟨source, expr, .ofExpr expr⟩

def compile (limit : Nat) (source : String) : Except FilterError Filter := do
  let lexed ← (tokenize source).mapError .lexing
  let expr ← (Expr.ofTokens limit lexed.tokens).mapError .parsing
  (expr.check limit).mapError .validity
  return ofExpr source expr

def canonical (filter : Filter) : String := filter.expr.text

def eval (filter : Filter) (context : TagContext) : Except EvalError Bool := filter.expr.eval context

def decide (filter : Filter) (context : TagContext) (policy : NonNumericPolicy) :
    Except EvalError Bool :=
  match filter.eval context, policy with
  | .error (.nonNumericTagValue _), .noMatch => .ok false
  | result, _ => result

end Filter

end TagQuery
