import TagQuery.Expr.Reader
import TagQuery.Expr.Validity
import TagQuery.Text.Diagnostic
import TagQuery.Token.Lexer

namespace TagQuery

inductive FilterError
  | lexing (error : LexError)
  | parsing (error : ParseError)
  | validity (error : ValidityError)
deriving DecidableEq, Repr

namespace FilterError

def code : FilterError → String
  | .lexing error => error.code
  | .parsing error => error.code
  | .validity error => error.code

def offset? : FilterError → Option Nat
  | .lexing error => some error.offset
  | .parsing error => some error.offset
  | .validity _ => none

def message : FilterError → String
  | .lexing error => "Lexical analysis failed: " ++ error.message
  | .parsing error => "Parsing failed: " ++ error.message
  | .validity error => "Validation failed: " ++ error.message

def render (error : FilterError) (source : String) : String :=
  let message := "[" ++ error.code ++ "] " ++ error.message
  match error.offset? with
  | some offset => Text.diagnostic source offset message
  | none => "Error: " ++ message ++ "\n"

end FilterError

end TagQuery
