import TagQuery.Number.Literal

namespace TagQuery.Json

open Number

structure Numeral where
  negative : Bool
  whole : List Char
  fraction : List Char
  exponent : Option Int
deriving DecidableEq, Repr

/-- Appends digits to a number as long as it fits 64 bits; the digits after that are left. -/
def absorb : Nat → List Char → Nat × List Char
  | value, [] => (value, [])
  | value, digit :: digits =>
    let longer := 10 * value + (digit.toNat - '0'.toNat)
    if longer < wordRange then absorb longer digits else (value, digit :: digits)

def powerOfTen (exponent : Nat) : Float := Decimal.toFloat false ⟨1, exponent⟩

/-- Multiplies by a power of ten, rounding once, or by as many as it takes to reach a small one.
    There is no result beyond the range of doubles. -/
def scale (x : Float) (exponent : Int) : Option Float :=
  if exponent.natAbs ≤ 308 then
    if 0 ≤ exponent then
      let scaled := x * powerOfTen exponent.natAbs
      if magnitude scaled = infinityBits then none else some scaled
    else some (x / powerOfTen exponent.natAbs)
  else if magnitude x = 0 then some x
  else if 0 ≤ exponent then none
  else scale (x / powerOfTen 308) (exponent + 308)
termination_by exponent.natAbs

namespace Numeral

/-- A whole number that 64 bits hold, with or without a sign, stays a whole number.
    Every other number keeps the digits that fit 64 bits and is scaled by a power of ten. -/
def value? (numeral : Numeral) : Option (Int ⊕ Float) :=
  let (short, leftOver) := absorb 0 numeral.whole
  let (digits, dropped) := absorb short numeral.fraction
  let sign (x : Float) : Float := if numeral.negative then -x else x
  if leftOver.isEmpty && numeral.fraction.isEmpty && numeral.exponent.isNone then
    if !numeral.negative then some (.inl digits)
    else if 0 < digits && 2 * digits ≤ wordRange then some (.inl (-digits))
    else some (.inr (sign (Decimal.toFloat false ⟨digits, 0⟩)))
  else
    let places : Int := numeral.fraction.length - dropped.length
    let exponent := leftOver.length - places + numeral.exponent.getD 0
    (scale (Decimal.toFloat false ⟨digits, 0⟩) exponent).map fun x => .inr (sign x)

end Numeral

/-- The text of a finite double in JSON: the shortest digits that read back, with a point for sizes
    from `1e-5` up to `1e16` and an exponent outside. Equally near decimals go to the even digit. -/
def floatText (x : Float) : String :=
  let sign := if negative x then "-" else ""
  if magnitude x = 0 then sign ++ "0.0"
  else
    let decimal := Decimal.shortest .even (magnitude x)
    let digits := Nat.toDigits 10 decimal.digits
    let place := digits.length + decimal.scale
    let plain := String.ofList decimal.plainText
    if 0 ≤ decimal.scale && place ≤ 16 then sign ++ plain ++ ".0"
    else if -5 < place && place ≤ 16 then sign ++ plain
    else
      let fraction := digits.drop 1
      let point := if fraction.isEmpty then "" else "." ++ String.ofList fraction
      sign ++ String.ofList (digits.take 1) ++ point ++ "e" ++ toString (place - 1)

end TagQuery.Json
