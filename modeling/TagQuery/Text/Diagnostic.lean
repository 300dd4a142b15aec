import TagQuery.Text.Slice

namespace TagQuery.Text

def lastLine (text : List Char) : List Char := (text.reverse.takeWhile (· ≠ '\n')).reverse

def firstLine (text : List Char) : List Char := text.takeWhile (· ≠ '\n')

/-- Where a byte offset stands: the whole characters before it and the text after them. An offset
    past the end or inside a character is moved back. -/
structure Cut where
  before : List Char
  after : List Char
deriving Repr, DecidableEq

namespace Cut

def ofOffset (source : List Char) (offset : Nat) : Cut :=
  let before := takeFitting offset source
  ⟨before, source.drop before.length⟩

def line (cut : Cut) : Nat := cut.before.count '\n' + 1

def column (cut : Cut) : Nat := (lastLine cut.before).length + 1

def sourceLine (cut : Cut) : List Char := lastLine cut.before ++ firstLine cut.after

end Cut

def spaces (count : Nat) : String := String.ofList (List.replicate count ' ')

def diagnostic (source : String) (offset : Nat) (message : String) : String :=
  let cut := Cut.ofOffset source.toList offset
  let number := toString cut.line
  let margin := spaces number.length
  "Error: " ++ message ++ "\n  --> " ++ number ++ ":" ++ toString cut.column ++
    "\n " ++ margin ++ " |\n" ++
    number ++ " | " ++ String.ofList cut.sourceLine ++ "\n " ++
    margin ++ " | " ++ spaces (cut.column - 1) ++ "^\n"

end TagQuery.Text
