import TagQuery.Number.Nearest

namespace TagQuery.Number

structure Decimal where
  digits : Nat
  scale : Int
deriving DecidableEq, Repr

namespace Decimal

def numerator (decimal : Decimal) : Nat := decimal.digits * Nat.pow 10 decimal.scale.toNat

def denominator (decimal : Decimal) : Nat := Nat.pow 10 (-decimal.scale).toNat

def bits (decimal : Decimal) : Nat := nearestBits decimal.numerator decimal.denominator

def toFloat (negative : Bool) (decimal : Decimal) : Float := ofMagnitude negative decimal.bits

/-- Moves the zeros at the end of the digits into the scale. -/
def strip (decimal : Decimal) : Decimal :=
  if decimal.digits ≠ 0 ∧ decimal.digits % 10 = 0 then
    strip ⟨decimal.digits / 10, decimal.scale + 1⟩
  else decimal
termination_by decimal.digits

def plainText (decimal : Decimal) : List Char :=
  let digits := Nat.toDigits 10 decimal.digits
  let places := (-decimal.scale).toNat
  if places = 0 then digits ++ List.replicate decimal.scale.toNat '0'
  else if places < digits.length then
    digits.take (digits.length - places) ++ '.' :: digits.drop (digits.length - places)
  else '0' :: '.' :: (List.replicate (places - digits.length) '0' ++ digits)

end Decimal

inductive Tie
  | up
  | even
deriving DecidableEq, Repr

def digitCount (n : Nat) : Nat := (Nat.toDigits 10 n).length

/-- Whether a decimal is too large for a double. Below 309 digits before the point none is, above 309
    every one is. -/
def Decimal.overflows (decimal : Decimal) : Bool :=
  let place := digitCount decimal.digits + decimal.scale
  decimal.digits ≠ 0 && (309 < place || place = 309 && decimal.bits = infinityBits)

def leadingPlace (numerator denominator : Nat) : Int :=
  let guess : Int := digitCount numerator - digitCount denominator
  if denominator * Nat.pow 10 guess.toNat ≤ numerator * Nat.pow 10 (-guess).toNat then guess + 1
  else guess

/-- The decimal with so many digits that reads back as a finite magnitude: the nearer of its two
    neighbours, else the other one. -/
def Decimal.ofDigitCount? (tie : Tie) (bits count : Nat) : Option Decimal :=
  let scale := leadingPlace (unitCount bits) unitsInOne - count
  let numerator := unitCount bits * Nat.pow 10 (-scale).toNat
  let denominator := unitsInOne * Nat.pow 10 scale.toNat
  let below := numerator / denominator
  let twice := 2 * (numerator % denominator)
  let upward := match tie with
    | .up => decide (denominator ≤ twice)
    | .even => decide (denominator < twice ∨ denominator = twice ∧ below % 2 = 1)
  let candidates := if upward then [below + 1, below] else [below, below + 1]
  (candidates.map fun digits => ⟨digits, scale⟩).find? fun decimal => decimal.bits = bits

def Decimal.exact (bits : Nat) : Decimal := ⟨unitCount bits * Nat.pow 5 1074, -1074⟩

def Decimal.shortest (tie : Tie) (bits : Nat) : Decimal :=
  (((List.range 17).findSome? fun count => ofDigitCount? tie bits (count + 1)).getD
    (exact bits)).strip

/-- The text of a double: the shortest digits that read back, positional, with no point in a whole
    number. Of two equally near decimals the larger magnitude is written. -/
def text (x : Float) : String :=
  let sign := if negative x then "-" else ""
  if magnitude x = 0 then sign ++ "0"
  else if magnitude x < infinityBits then
    sign ++ String.ofList (Decimal.shortest .up (magnitude x)).plainText
  else if magnitude x = infinityBits then sign ++ "inf"
  else "NaN"

end TagQuery.Number
