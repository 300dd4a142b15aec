namespace TagQuery.Text

/-- A value read from the beginning of a text, and the shorter text after it. -/
structure Reading (α : Type) (text : List Char) where
  value : α
  rest : List Char
  shorter : rest.length < text.length

namespace Reading

variable {α β : Type} {text : List Char}

def map (f : α → β) (reading : Reading α text) : Reading β text :=
  ⟨f reading.value, reading.rest, reading.shorter⟩

def within {longer : List Char} (reading : Reading α text) (le : text.length ≤ longer.length) :
    Reading α longer :=
  ⟨reading.value, reading.rest, Nat.lt_of_lt_of_le reading.shorter le⟩

end Reading

def hexDigit? (c : Char) : Option Nat :=
  if c.isDigit then some (c.toNat - '0'.toNat)
  else if 'a' ≤ c && c ≤ 'f' then some (c.toNat - 'a'.toNat + 10)
  else if 'A' ≤ c && c ≤ 'F' then some (c.toNat - 'A'.toNat + 10)
  else none

end TagQuery.Text
