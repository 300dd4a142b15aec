import TagQuery.Number.Decimal
import TagQuery.Text.Blank

namespace TagQuery.Number

def digitsValue (digits : List Char) : Nat :=
  digits.foldl (fun value digit => 10 * value + (digit.toNat - '0'.toNat)) 0

def splitPoint (text : List Char) : List Char × Option (List Char) :=
  match text.dropWhile (· ≠ '.') with
  | [] => (text, none)
  | _ :: fraction => (text.takeWhile (· ≠ '.'), some fraction)

def isDigits (text : List Char) : Bool := !text.isEmpty && text.all Char.isDigit

/-- Whether a text is the number literal of an expression: `digits` or `digits.digits` after at most one `-`. -/
def isLiteral (text : List Char) : Bool :=
  let unsigned := match text with
    | '-' :: rest => rest
    | _ => text
  let (whole, fraction) := splitPoint unsigned
  isDigits whole && fraction.all isDigits

/-- Whether the sign in front of a text is a minus, and the text without its sign. -/
def splitSign : List Char → Bool × List Char
  | '-' :: rest => (true, rest)
  | '+' :: rest => (false, rest)
  | text => (false, text)

def exponent? : List Char → Option Int
  | [] => some 0
  | mark :: rest =>
    let (negative, digits) := splitSign rest
    let value : Int := digitsValue digits
    if (mark = 'e' || mark = 'E') && isDigits digits then some (if negative then -value else value)
    else none

/-- Reads digits with a point among them or at either end, or none, and an exponent behind them. -/
def decimal? (text : List Char) : Option Decimal := do
  let whole := text.takeWhile Char.isDigit
  let (fraction, rest) := match text.dropWhile Char.isDigit with
    | '.' :: rest => (rest.takeWhile Char.isDigit, rest.dropWhile Char.isDigit)
    | rest => ([], rest)
  if (whole ++ fraction).isEmpty then none
  else return ⟨digitsValue (whole ++ fraction), (← exponent? rest) - fraction.length⟩

/-- Reads a double in any of its spellings. Infinities and what is no number are spelled in any case. -/
def double? (text : List Char) : Option Float :=
  let (negative, unsigned) := splitSign text
  let word := unsigned.map Char.toLower
  if word = "inf".toList || word = "infinity".toList then some (ofMagnitude negative infinityBits)
  else if word = "nan".toList then some (ofMagnitude negative (infinityBits + Nat.pow 2 51))
  else (decimal? unsigned).map (Decimal.toFloat negative)

/-- Reads the value of a tag as a number. It has the form of a literal, but may begin with `+` and stand between
    blanks. -/
def ofTagValue? (value : String) : Option Float :=
  let trimmed := Text.trim value.toList
  let unsigned := match trimmed with
    | '+' :: rest => rest
    | '-' :: rest => rest
    | _ => trimmed
  let (whole, fraction) := splitPoint unsigned
  if isDigits whole && fraction.all isDigits then double? trimmed else none

def wordRange : Nat := Nat.pow 2 64

def unsigned64? (text : String) : Option Nat :=
  let digits := match text.toList with
    | '+' :: digits => digits
    | digits => digits
  if isDigits digits && digitsValue digits < wordRange then some (digitsValue digits) else none

end TagQuery.Number
