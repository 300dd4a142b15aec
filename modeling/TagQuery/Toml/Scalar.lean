import TagQuery.Number.Literal
import TagQuery.Text.Reading
import TagQuery.Toml.Basic

namespace TagQuery.Toml

open Number (wordRange)
open Text (hexDigit?)

def groupedDigits? (isDigit : Char → Bool) : List Char → Option (List Char)
  | [] => none
  | [c] => if isDigit c then some [c] else none
  | c :: '_' :: rest => if isDigit c then (groupedDigits? isDigit rest).map (c :: ·) else none
  | c :: rest => if isDigit c then (groupedDigits? isDigit rest).map (c :: ·) else none

def noLeadingZero (digits : List Char) : Bool := digits.length ≤ 1 || digits.head? ≠ some '0'

def decimal? (text : List Char) : Option (List Char) := do
  let digits ← groupedDigits? Char.isDigit text
  if noLeadingZero digits then some digits else none

def radixValue (radix : Nat) (digits : List Char) : Nat :=
  digits.foldl (fun value digit => radix * value + (hexDigit? digit).getD 0) 0

def inRange (value : Int) : Option Toml :=
  if -(wordRange : Int) ≤ 2 * value && 2 * value < wordRange then some (.integer value) else none

def splitSign : List Char → Bool × List Char
  | '+' :: text => (false, text)
  | '-' :: text => (true, text)
  | text => (false, text)

def integer? (text : List Char) : Option Toml :=
  let radix (base : Nat) (digits : List Char) : Option Toml := do
    let isDigit (c : Char) : Bool := ((hexDigit? c).map (decide <| · < base)).getD false
    let digits ← groupedDigits? isDigit digits
    inRange (radixValue base digits)
  match text with
  | '0' :: 'x' :: digits => radix 16 digits
  | '0' :: 'o' :: digits => radix 8 digits
  | '0' :: 'b' :: digits => radix 2 digits
  | _ => do
    let (negative, unsigned) := splitSign text
    let value : Int := Number.digitsValue (← decimal? unsigned)
    inRange (if negative then -value else value)

def exponent? : List Char → Option Int
  | mark :: text => do
    let (negative, digits) := splitSign text
    let size : Int := Number.digitsValue (← groupedDigits? Char.isDigit digits)
    if mark = 'e' || mark = 'E' then some (if negative then -size else size) else none
  | [] => none

def fractional? (text : List Char) : Option Number.Decimal := do
  let isPart (c : Char) : Bool := c.isDigit || c = '_'
  let whole ← decimal? (text.takeWhile isPart)
  match text.dropWhile isPart with
  | '.' :: places =>
    let fraction ← groupedDigits? Char.isDigit (places.takeWhile isPart)
    let tail := places.dropWhile isPart
    let exponent ← if tail.isEmpty then some 0 else exponent? tail
    return ⟨Number.digitsValue (whole ++ fraction), exponent - fraction.length⟩
  | tail => return ⟨Number.digitsValue whole, ← exponent? tail⟩

/-- A number above the range of doubles is refused, one below it counts as negative infinity. -/
def float? (text : List Char) : Option Toml := do
  let (negative, unsigned) := splitSign text
  if unsigned = "inf".toList || unsigned = "nan".toList then return .float
  else if (← fractional? unsigned).overflows && !negative then none
  else return .float

def twoDigits? (a b : Char) : Option Nat :=
  if a.isDigit && b.isDigit then some (Number.digitsValue [a, b]) else none

def daysIn (year month : Nat) : Nat :=
  if month = 2 then
    if year % 4 = 0 && (year % 100 ≠ 0 || year % 400 = 0) then 29 else 28
  else if month = 4 || month = 6 || month = 9 || month = 11 then 30
  else 31

def afterDate? : List Char → Option (List Char)
  | a :: b :: c :: d :: '-' :: e :: f :: '-' :: g :: h :: rest => do
    let year := (← twoDigits? a b) * 100 + (← twoDigits? c d)
    let month ← twoDigits? e f
    let day ← twoDigits? g h
    if 1 ≤ month && month ≤ 12 && 1 ≤ day && day ≤ daysIn year month then some rest else none
  | _ => none

def afterTime? : List Char → Option (List Char)
  | a :: b :: ':' :: c :: d :: ':' :: e :: f :: rest => do
    let hour ← twoDigits? a b
    let minute ← twoDigits? c d
    let second ← twoDigits? e f
    if hour ≤ 23 && minute ≤ 59 && second ≤ 60 then
      match rest with
      | '.' :: places =>
        if (places.takeWhile Char.isDigit).isEmpty then none
        else some (places.dropWhile Char.isDigit)
      | _ => some rest
    else none
  | _ => none

def isZone : List Char → Bool
  | [] => true
  | [c] => c = 'Z' || c = 'z'
  | sign :: a :: b :: ':' :: c :: [d] =>
    (sign = '+' || sign = '-') && ((twoDigits? a b).map (decide <| · ≤ 23)).getD false &&
      ((twoDigits? c d).map (decide <| · ≤ 59)).getD false
  | _ => false

def isMoment (text : List Char) : Bool :=
  match afterDate? text with
  | some [] => true
  | some (separator :: time) =>
    (separator = 'T' || separator = 't' || separator = ' ') &&
      ((afterTime? time).map isZone).getD false
  | none => ((afterTime? text).map List.isEmpty).getD false

def scalar? (text : List Char) : Option Toml :=
  if text = "true".toList then some (.bool true)
  else if text = "false".toList then some (.bool false)
  else if isMoment text then some .moment
  else (float? text).or (integer? text)

end TagQuery.Toml
