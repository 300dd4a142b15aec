import TagQuery.Number.Literal
import TagQuery.Text.Position
import TagQuery.Token.Keyword

namespace TagQuery

/-- A token of an expression. A number keeps its spelling, since it may also be part of a path. -/
inductive Token
  | word (text : String)
  | number (text : String) (value : Float)
  | dot
  | opening
  | closing
  | keyword (joining : Keyword)
  | eof
deriving BEq, DecidableEq, Repr

inductive TokenClass
  | operator
  | literal
  | identifier
  | punctuation
  | special
deriving DecidableEq, Repr

namespace Token

def ofWord (word : String) : Token :=
  match Keyword.ofWord? word with
  | some found => keyword found
  | none => .word word

def text : Token → String
  | .word text => text
  | .number text _ => text
  | .dot => "."
  | .opening => "("
  | .closing => ")"
  | .keyword joining => joining.text
  | .eof => "<EOF>"

def describe : Token → String
  | .word text => "identifier '" ++ text ++ "'"
  | .number text _ => "number '" ++ text ++ "'"
  | .eof => "end of input"
  | token => "'" ++ token.text ++ "'"

def tokenClass : Token → TokenClass
  | .word _ => .identifier
  | .number _ _ => .literal
  | .dot | .opening | .closing => .punctuation
  | .keyword _ => .operator
  | .eof => .special

def segment? : Token → Option String
  | .word text => some text
  | .number text _ => some text
  | _ => none

def isEof : Token → Bool
  | .eof => true
  | _ => false

end Token

structure TokenCounts where
  total : Nat := 0
  words : Nat := 0
  numbers : Nat := 0
  operators : Nat := 0
  punctuation : Nat := 0
  longestWord : Nat := 0
deriving DecidableEq, Repr

namespace TokenCounts

def record (counts : TokenCounts) (token : Token) : TokenCounts :=
  match token with
  | .eof => counts
  | .word text =>
    { counts with
      total := counts.total + 1
      words := counts.words + 1
      longestWord := max counts.longestWord text.utf8ByteSize }
  | .number _ _ => { counts with total := counts.total + 1, numbers := counts.numbers + 1 }
  | .keyword _ => { counts with total := counts.total + 1, operators := counts.operators + 1 }
  | .dot | .opening | .closing =>
    { counts with total := counts.total + 1, punctuation := counts.punctuation + 1 }

end TokenCounts

end TagQuery
