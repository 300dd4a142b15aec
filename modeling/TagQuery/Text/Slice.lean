namespace TagQuery.Text

def byteLength : List Char → Nat
  | [] => 0
  | c :: text => c.utf8Size + byteLength text

/-- Splits after exactly so many bytes; there is no such split past the end or inside a character. -/
def splitAtByte? : List Char → Nat → Option (List Char × List Char)
  | text, 0 => some ([], text)
  | [], _ + 1 => none
  | c :: text, bytes + 1 =>
    if c.utf8Size ≤ bytes + 1 then
      (splitAtByte? text (bytes + 1 - c.utf8Size)).map fun (front, back) => (c :: front, back)
    else none

def slice? (text : List Char) (start stop : Nat) : Option (List Char) :=
  if start ≤ stop then do
    let (_, back) ← splitAtByte? text start
    let (middle, _) ← splitAtByte? back (stop - start)
    return middle
  else none

def takeFitting : Nat → List Char → List Char
  | _, [] => []
  | bytes, c :: text =>
    if c.utf8Size ≤ bytes then c :: takeFitting (bytes - c.utf8Size) text else []

end TagQuery.Text
