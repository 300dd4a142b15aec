import TagQuery.Token.Basic

namespace TagQuery

/-- A place in a list of tokens. Past the last token it reads the end marker. -/
structure Cursor where
  tokens : List (Spanned Token)
  index : Nat := 0

namespace Cursor

def endOffset (tokens : List (Spanned Token)) : Nat :=
  (tokens.getLast?.map fun last => last.span.stop.offset).getD 0

def current? (cursor : Cursor) : Option (Spanned Token) := cursor.tokens[cursor.index]?

def token (cursor : Cursor) : Token := (cursor.current?.map (·.value)).getD .eof

def offset (cursor : Cursor) : Nat :=
  (cursor.current?.map (·.offset)).getD (endOffset cursor.tokens)

def peek (cursor : Cursor) : Token := (cursor.tokens[cursor.index + 1]?.map (·.value)).getD .eof

/-- Moves past the current token, but never past the end of the list. -/
def advance (cursor : Cursor) : Cursor :=
  if cursor.index < cursor.tokens.length then { cursor with index := cursor.index + 1 } else cursor

def matches? (cursor : Cursor) (expected : Token) : Bool := cursor.token == expected

def accept (cursor : Cursor) (expected : Token) : Bool × Cursor :=
  if cursor.matches? expected then (true, cursor.advance) else (false, cursor)

def isAtEnd (cursor : Cursor) : Bool := cursor.token.isEof

def significantLength (cursor : Cursor) : Nat :=
  match cursor.tokens.getLast? with
  | some last => if last.value.isEof then cursor.tokens.length - 1 else cursor.tokens.length
  | none => 0

end Cursor

end TagQuery
