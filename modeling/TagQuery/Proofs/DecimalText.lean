import TagQuery.Proofs.FloatBits
import TagQuery.Proofs.Numerals

namespace TagQuery.Number

theorem roundHalfEven_scaled {factor : Nat} (positive : 0 < factor) (numerator denominator : Nat) :
    roundHalfEven (factor * numerator) (factor * denominator) = roundHalfEven numerator denominator := by
  have quotient := Nat.mul_div_mul_left numerator denominator positive
  have twice : 2 * (factor * numerator % (factor * denominator)) = factor * (2 * (numerator % denominator)) := by
    rw [Nat.mul_mod_mul_left, Nat.mul_left_comm]
  simp only [roundHalfEven, quotient, twice, Nat.mul_lt_mul_left positive]

theorem roundHalfEven_exact {denominator : Nat} (positive : 0 < denominator) (quotient : Nat) :
    roundHalfEven (quotient * denominator) denominator = quotient := by
  simp only [roundHalfEven, Nat.mul_mod_left, Nat.mul_div_cancel quotient positive]
  rw [if_pos positive]

theorem nearestBits_scaled {factor : Nat} (positive : 0 < factor) (numerator denominator : Nat) :
    nearestBits (factor * numerator) (factor * denominator) = nearestBits numerator denominator := by
  simp only [nearestBits, Nat.mul_assoc, Nat.mul_div_mul_left _ _ positive, roundHalfEven_scaled positive]

theorem nearestBits_of_equal {numerator denominator numerator' denominator' : Nat} (positive : 0 < denominator)
    (positive' : 0 < denominator') (equal : numerator * denominator' = numerator' * denominator) :
    nearestBits numerator denominator = nearestBits numerator' denominator' := by
  rw [← nearestBits_scaled positive' numerator denominator, ← nearestBits_scaled positive numerator' denominator',
    Nat.mul_comm denominator' numerator, equal, Nat.mul_comm denominator' denominator,
    Nat.mul_comm denominator numerator']

theorem stepsInOctave_eq : stepsInOctave = 2 ^ 52 := rfl

theorem significand_normal {bits : Nat} (normal : stepsInOctave ≤ bits) :
    stepsInOctave ≤ significand bits ∧ significand bits < 2 * stepsInOctave ∧
      stepExponent bits * stepsInOctave + significand bits = bits := by
  have one : 1 ≤ bits / stepsInOctave := (Nat.one_le_div_iff (by decide)).mpr normal
  have split := Nat.div_add_mod bits stepsInOctave
  have below := Nat.mod_lt bits (show 0 < stepsInOctave by decide)
  have product : stepExponent bits * stepsInOctave + stepsInOctave = stepsInOctave * (bits / stepsInOctave) := by
    rw [stepExponent, ← Nat.succ_mul, Nat.succ_eq_add_one, Nat.sub_add_cancel one, Nat.mul_comm]
  rw [significand, if_neg (Nat.not_lt.mpr normal)]
  omega

theorem power_pos (exponent : Nat) : 0 < Nat.pow 2 exponent := Nat.pow_pos (by decide)

theorem unitsInOne_pos : 0 < unitsInOne := by
  unfold unitsInOne
  generalize 1074 = exponent
  exact power_pos exponent

theorem nearestBits_unitCount {bits : Nat} (finite : bits < infinityBits) :
    nearestBits (unitCount bits) unitsInOne = bits := by
  simp only [nearestBits, Nat.mul_div_cancel _ unitsInOne_pos]
  have exact (exponent quotient : Nat) : roundHalfEven (quotient * Nat.pow 2 exponent * unitsInOne)
      (unitsInOne * Nat.pow 2 exponent) = quotient := by
    rw [Nat.mul_assoc, Nat.mul_comm (Nat.pow 2 exponent)]
    exact roundHalfEven_exact (Nat.mul_pos unitsInOne_pos (power_pos exponent)) quotient
  by_cases normal : stepsInOctave ≤ bits
  · -- the steps of a normal magnitude have 53 binary digits, so the exponent is found again
    obtain ⟨least, greatest, whole⟩ := significand_normal normal
    have log : (unitCount bits).log2 = 52 + stepExponent bits := by
      have power := power_pos (stepExponent bits)
      have nonzero : unitCount bits ≠ 0 :=
        Nat.ne_of_gt (Nat.mul_pos (Nat.lt_of_lt_of_le (by decide) least) power)
      rw [Nat.log2_eq_iff nonzero, Nat.pow_add, Nat.add_right_comm, Nat.pow_add]
      exact ⟨Nat.mul_le_mul_right _ least, Nat.mul_lt_mul_of_pos_right greatest power⟩
    rw [log, Nat.add_sub_cancel_left, unitCount, exact, whole]
    exact Nat.min_eq_right (Nat.le_of_lt finite)
  · have small := Nat.lt_of_not_le normal
    have count : unitCount bits = bits * Nat.pow 2 0 := by
      rw [unitCount, significand, if_pos small, stepExponent, Nat.div_eq_of_lt small]
    have log : (unitCount bits).log2 - 52 = 0 := by
      by_cases zero : unitCount bits = 0
      · rw [zero]
        decide
      · have bounded : unitCount bits < 2 ^ 53 := by
          rw [count]
          have octave := stepsInOctave_eq
          show bits * 1 < 2 ^ 53
          omega
        have low := (Nat.log2_lt zero).mpr bounded
        omega
    rw [log, count, exact, Nat.zero_mul, Nat.zero_add]
    exact Nat.min_eq_right (Nat.le_of_lt finite)

namespace Decimal

theorem denominator_pos (decimal : Decimal) : 0 < decimal.denominator := Nat.pow_pos (by decide)

theorem bits_of_equal {first second : Decimal}
    (equal : first.numerator * second.denominator = second.numerator * first.denominator) :
    first.bits = second.bits := nearestBits_of_equal first.denominator_pos second.denominator_pos equal

theorem bits_exact {magnitude : Nat} (finite : magnitude < infinityBits) : (exact magnitude).bits = magnitude := by
  have whole : (-1074 : Int).toNat = 0 := rfl
  have places : (- -1074 : Int).toNat = 1074 := rfl
  have equal : (exact magnitude).numerator * unitsInOne = unitCount magnitude * (exact magnitude).denominator := by
    simp only [numerator, denominator, exact, whole, places]
    unfold unitsInOne
    generalize 1074 = count
    have split : Nat.pow 10 count = Nat.pow 5 count * Nat.pow 2 count := Nat.mul_pow 5 2 count
    rw [split, show Nat.pow 10 0 = 1 from rfl, Nat.mul_one, Nat.mul_assoc]
  exact (nearestBits_of_equal (exact magnitude).denominator_pos unitsInOne_pos equal).trans
    (nearestBits_unitCount finite)

theorem bits_shift (digits : Nat) (scale : Int) : bits ⟨10 * digits, scale⟩ = bits ⟨digits, scale + 1⟩ := by
  apply bits_of_equal
  simp only [numerator, denominator]
  by_cases whole : 0 ≤ scale
  · have next : (scale + 1).toNat = scale.toNat + 1 := by omega
    have none : (-scale).toNat = 0 := by omega
    have none' : (-(scale + 1)).toNat = 0 := by omega
    rw [next, none, none', Nat.mul_comm 10 digits, Nat.mul_assoc digits]
    exact congrArg (digits * · * _) (Nat.pow_succ').symm
  · have fewer : (-scale).toNat = (-(scale + 1)).toNat + 1 := by omega
    have none : scale.toNat = 0 := by omega
    have none' : (scale + 1).toNat = 0 := by omega
    have power : Nat.pow 10 ((-(scale + 1)).toNat + 1) = 10 * Nat.pow 10 (-(scale + 1)).toNat := Nat.pow_succ'
    rw [fewer, none, none', power, show Nat.pow 10 0 = 1 from rfl, Nat.mul_one, Nat.mul_one,
      Nat.mul_comm 10 digits, Nat.mul_assoc]

theorem bits_strip (decimal : Decimal) : decimal.strip.bits = decimal.bits := by
  fun_induction strip decimal with
  | case1 decimal more ih =>
    have whole : 10 * (decimal.digits / 10) = decimal.digits := by omega
    rw [ih, ← bits_shift, whole]
  | case2 => rfl

theorem bits_shortest (tie : Tie) {magnitude : Nat} (finite : magnitude < infinityBits) :
    (shortest tie magnitude).bits = magnitude := by
  rw [shortest, bits_strip]
  cases found : (List.range 17).findSome? fun count => ofDigitCount? tie magnitude (count + 1) with
  | none => exact bits_exact finite
  | some decimal =>
    obtain ⟨count, -, near⟩ := List.exists_of_findSome?_eq_some found
    have back := List.find?_some near
    exact of_decide_eq_true back

end Decimal

theorem digitsValue_append (front back : List Char) :
    digitsValue (front ++ back) = Nat.ofDigitChars 10 back (digitsValue front) := Nat.ofDigitChars_append 0

theorem digitsValue_toDigits (n : Nat) : digitsValue (Nat.toDigits 10 n) = n := Nat.ofDigitChars_ten_toDigits

theorem digitsValue_zeros (count : Nat) (digits : List Char) :
    digitsValue (List.replicate count '0' ++ digits) = digitsValue digits := by
  rw [digitsValue_append, digitsValue, ← Nat.ofDigitChars_eq_foldl, Nat.ofDigitChars_replicate_zero, Nat.mul_zero]
  rfl

theorem isDigits_append {front back : List Char} (some : front ++ back ≠ []) (first : front.all Char.isDigit = true)
    (second : back.all Char.isDigit = true) : isDigits (front ++ back) = true := by
  rw [isDigits_iff, List.all_append, first, second]
  exact ⟨some, rfl⟩

theorem toDigits_all (n : Nat) : (Nat.toDigits 10 n).all Char.isDigit = true :=
  List.all_eq_true.mpr fun _ member => Nat.isDigit_of_mem_toDigits (by decide) (by decide) member

theorem replicate_all (count : Nat) : (List.replicate count '0').all Char.isDigit = true := by
  rw [List.all_eq_true]
  intro c member
  rw [(List.mem_replicate.mp member).2]
  decide

theorem Decimal.plainText_reads_back (decimal : Decimal) :
    IsUnsigned decimal.plainText ∧ (numeralDecimal decimal.plainText).bits = decimal.bits := by
  obtain ⟨digits, scale⟩ := decimal
  have allDigits := toDigits_all digits
  have length := @Nat.length_toDigits_pos 10 digits
  simp only [plainText]
  by_cases whole : (-scale).toNat = 0
  · rw [if_pos whole]
    have some : Nat.toDigits 10 digits ++ List.replicate scale.toNat '0' ≠ [] :=
      List.append_ne_nil_of_left_ne_nil Nat.toDigits_ne_nil _
    have form := isDigits_append some allDigits (replicate_all scale.toNat)
    refine ⟨Or.inl form, ?_⟩
    rw [numeralDecimal_digits form, digitsValue_append, digitsValue_toDigits, Nat.ofDigitChars_replicate_zero]
    apply bits_of_equal
    simp only [numerator, denominator, whole]
    show 10 ^ scale.toNat * digits * 1 * 1 = digits * 10 ^ scale.toNat * 1
    rw [Nat.mul_one, Nat.mul_one, Nat.mul_one, Nat.mul_comm]
  · rw [if_neg whole]
    have negative : -((-scale).toNat : Int) = scale := by omega
    by_cases inside : (-scale).toNat < (Nat.toDigits 10 digits).length
    · rw [if_pos inside]
      generalize cut : (Nat.toDigits 10 digits).length - (-scale).toNat = place
      have parts := List.take_append_drop place (Nat.toDigits 10 digits)
      have all := allDigits
      rw [← parts, List.all_append, Bool.and_eq_true] at all
      have before : isDigits ((Nat.toDigits 10 digits).take place) = true := by
        rw [isDigits_iff, ← List.length_pos_iff, List.length_take]
        exact ⟨by omega, all.1⟩
      have after : isDigits ((Nat.toDigits 10 digits).drop place) = true := by
        rw [isDigits_iff, ← List.length_pos_iff, List.length_drop]
        exact ⟨by omega, all.2⟩
      have places : ((Nat.toDigits 10 digits).drop place).length = (-scale).toNat := by
        rw [List.length_drop]
        omega
      refine ⟨Or.inr ⟨_, _, before, after, rfl⟩, ?_⟩
      rw [numeralDecimal_point before after, parts, places, negative, digitsValue_toDigits]
    · rw [if_neg inside]
      have after : isDigits (List.replicate ((-scale).toNat - (Nat.toDigits 10 digits).length) '0' ++
          Nat.toDigits 10 digits) = true :=
        isDigits_append (List.append_ne_nil_of_right_ne_nil _ Nat.toDigits_ne_nil) (replicate_all _) allDigits
      have places : (List.replicate ((-scale).toNat - (Nat.toDigits 10 digits).length) '0' ++
          Nat.toDigits 10 digits).length = (-scale).toNat := by
        rw [List.length_append, List.length_replicate]
        omega
      have zeros : ['0'] = List.replicate 1 '0' := rfl
      have zero : isDigits ['0'] = true := rfl
      have read := numeralDecimal_point zero after
      refine ⟨Or.inr ⟨['0'], _, zero, after, rfl⟩, congrArg bits (read.trans ?_)⟩
      rw [places, negative, zeros, digitsValue_zeros, digitsValue_zeros, digitsValue_toDigits]

theorem literal?_signed {digits : List Char} (sign : Bool) (form : IsUnsigned digits) :
    literal? ((if sign then "-" else "").toList ++ digits) = some ((numeralDecimal digits).toFloat sign) := by
  cases sign with
  | true =>
    have numeral : IsNumeral ('-' :: digits) := Or.inr ⟨digits, form, rfl⟩
    exact literal?_of_isNumeral numeral
  | false =>
    have numeral : IsNumeral digits := Or.inl form
    exact (literal?_of_isNumeral numeral).trans (congrArg some (numeralValue_unsigned form))

theorem literal?_text {x : Float} (finite : isFinite x = true) : literal? (text x).toList = some x := by
  have below : magnitude x < infinityBits := of_decide_eq_true finite
  have whole := ofMagnitude_magnitude x
  have signed {digits : List Char} (form : IsUnsigned digits) (near : (numeralDecimal digits).bits = magnitude x) :
      literal? ((if negative x then "-" else "") ++ String.ofList digits).toList = some x := by
    rw [String.toList_append, String.toList_ofList, literal?_signed _ form, Decimal.toFloat, near, whole]
  simp only [text]
  by_cases zero : magnitude x = 0
  · rw [if_pos zero]
    have form : isDigits ['0'] = true := rfl
    have bits : (numeralDecimal ['0']).bits = magnitude x := by
      rw [zero]
      decide +kernel
    exact signed (Or.inl form) bits
  · rw [if_neg zero, if_pos below]
    obtain ⟨form, same⟩ := (Decimal.shortest .up (magnitude x)).plainText_reads_back
    exact signed form (same.trans (Decimal.bits_shortest .up below))

end TagQuery.Number
