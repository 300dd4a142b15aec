namespace TagQuery.Number

def roundHalfEven (numerator denominator : Nat) : Nat :=
  let quotient := numerator / denominator
  let twice := 2 * (numerator % denominator)
  if twice < denominator then quotient
  else if denominator < twice then quotient + 1
  else quotient + quotient % 2

/-- How many times the least positive double, the unit, goes into one. -/
def unitsInOne : Nat := Nat.pow 2 1074

def stepsInOctave : Nat := Nat.pow 2 52

def infinityBits : Nat := 2047 * stepsInOctave

def signBit : Nat := Nat.pow 2 63

/-- The magnitude of the double nearest to a quotient. A magnitude with exponent `e` above the
    least one steps by `2 ^ e` units, so the rounded count of steps and the exponent add up to the
    bits, and a carry of the count into the exponent is the right one. -/
def nearestBits (numerator denominator : Nat) : Nat :=
  let units := numerator * unitsInOne
  let exponent := (units / denominator).log2 - 52
  min infinityBits
    (exponent * stepsInOctave + roundHalfEven units (denominator * Nat.pow 2 exponent))

def significand (bits : Nat) : Nat :=
  if bits < stepsInOctave then bits else bits % stepsInOctave + stepsInOctave

def stepExponent (bits : Nat) : Nat := bits / stepsInOctave - 1

def unitCount (bits : Nat) : Nat := significand bits * Nat.pow 2 (stepExponent bits)

def negative (x : Float) : Bool := signBit ≤ x.toBits.toNat

def magnitude (x : Float) : Nat := x.toBits.toNat % signBit

def isFinite (x : Float) : Bool := magnitude x < infinityBits

def ofMagnitude (negative : Bool) (bits : Nat) : Float :=
  Float.ofBits (UInt64.ofNat (if negative then signBit + bits else bits))

end TagQuery.Number
