import TagQuery.Filter.Basic
import TagQuery.Log.Event

namespace TagQuery

def LexError.event (error : LexError) : LogEvent :=
  (LogEvent.error error.code error.message).withOffset error.offset

def ParseError.event (error : ParseError) : LogEvent :=
  (LogEvent.error error.code error.message).withOffset error.offset

def ValidityError.event (error : ValidityError) : LogEvent := .error error.code error.message

def tokenizeLogged (source : String) : Logged (Except LexError Lexed) := do
  let result := tokenize source
  Logged.log <|
    match result with
    | .ok lexed =>
      ((LogEvent.debug "I020" "Tokenization complete").withNumber "tokens" lexed.counts.total).withNumber
        "input_length" source.utf8ByteSize
    | .error error => error.event
  return result

namespace Expr

def ofTokensLogged (limit : Nat) (tokens : List (Spanned Token)) :
    Logged (Except ParseError Expr) := do
  let result := ofTokens limit tokens
  Logged.log <|
    match result with
    | .ok expr =>
      ((LogEvent.debug "I040" "Parse complete").withNumber "tokens" tokens.length).withNumber
        "nodes" expr.nodeCount
    | .error error => error.event
  return result

def checkLogged (limit : Nat) (expr : Expr) : Logged (Except ValidityError Unit) := do
  let result := expr.check limit
  Logged.log <|
    match result with
    | .ok () => (LogEvent.debug "I060" "Validation passed").withNumber "nodes" expr.nodeCount
    | .error error => error.event
  return result

def ofSourceLogged (limit : Nat) (source : String) : Logged (Except FilterError Expr) := do
  match ← tokenizeLogged source with
  | .error error => return .error (.lexing error)
  | .ok lexed => return (← ofTokensLogged limit lexed.tokens).mapError .parsing

end Expr

namespace Filter

def lengthWarning (source : String) : LogEvent :=
  ((LogEvent.warning "W010" "Filter expression exceeds recommended length").withNumber
    "length" source.length).withNumber "recommended_max" Limits.recommendedLength

def compiledEvent (lexed : Lexed) (filter : Filter) : LogEvent :=
  (((LogEvent.info "I061" "Filter compiled").withNumber "tokens" lexed.counts.total).withNumber
    "nodes" filter.shape.nodes).withDetail "duration_ms" .elapsed

def compileLogged (limit : Nat) (source : String) : Logged (Except FilterError Filter) := do
  Logged.when (Limits.recommendedLength < source.length) (lengthWarning source)
  match ← tokenizeLogged source with
  | .error error => return .error (.lexing error)
  | .ok lexed =>
    match ← Expr.ofTokensLogged limit lexed.tokens with
    | .error error => return .error (.parsing error)
    | .ok expr =>
      match ← expr.checkLogged limit with
      | .error error => return .error (.validity error)
      | .ok () =>
        let filter := ofExpr source expr
        Logged.log (compiledEvent lexed filter)
        return .ok filter

theorem compileLogged_value (limit : Nat) (source : String) :
    (compileLogged limit source).value = compile limit source := by
  simp only [compileLogged, compile, tokenizeLogged, Expr.ofTokensLogged, Expr.checkLogged,
    Logged.value_bind, Logged.value_pure]
  cases tokenize source with
  | error error => rfl
  | ok lexed =>
    simp only [Logged.value_bind, Logged.value_pure]
    cases parsed : Expr.ofTokens limit lexed.tokens with
    | error error =>
      show _ = (Expr.ofTokens limit lexed.tokens).mapError FilterError.parsing >>= _
      rw [parsed]
      rfl
    | ok expr =>
      simp only [Logged.value_bind, Logged.value_pure]
      show _ = (Expr.ofTokens limit lexed.tokens).mapError FilterError.parsing >>= _
      rw [parsed]
      show _ = (expr.check limit).mapError FilterError.validity >>= _
      cases expr.check limit <;> rfl

end Filter

end TagQuery
