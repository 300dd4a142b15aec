namespace TagQuery

inductive Keyword
  | and
  | or
  | not
deriving DecidableEq, Repr

namespace Keyword

def text : Keyword → String
  | .and => "and"
  | .or => "or"
  | .not => "not"

/-- Case matters in ASCII letters only, so no other letter can stand in a keyword. -/
def ofWord? (word : String) : Option Keyword :=
  [and, or, not].find? fun keyword => word.toList.map Char.toLower = keyword.text.toList

end Keyword

def isReserved (word : String) : Bool := (Keyword.ofWord? word).isSome

def tagWord : String := "tag"

end TagQuery
