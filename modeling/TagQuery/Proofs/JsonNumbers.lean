import TagQuery.Proofs.DecimalText
import TagQuery.Proofs.JsonStrings

namespace TagQuery

namespace Json

open Text Number

def continuesNumber (c : Char) : Bool := c.isDigit || c = '.' || c = 'e' || c = 'E'

def IsWhole (digits : List Char) : Prop := isDigits digits = true ∧ (digits.length = 1 ∨ digits.head? ≠ some '0')

/-- A text is read as one number, whatever comes after it that does not go on with the number. -/
def IsNumeral (text : List Char) : Prop :=
  ∃ read, ∀ rest, startsWith continuesNumber rest = false → numeral (text ++ rest) = some (read, rest)

theorem startsWith_digit_of_stops {rest : List Char} (stops : startsWith continuesNumber rest = false) :
    startsWith Char.isDigit rest = false := by
  refine startsWith_mono (fun c digit => ?_) stops
  simp [continuesNumber, digit]

theorem places_none {text : List Char} (other : startsWith (· = '.') text = false) :
    places text = some ([], text) := by
  unfold places
  split
  · simp [startsWith] at other
  · rfl

theorem places_point {digits rest : List Char} (form : isDigits digits = true)
    (stops : startsWith Char.isDigit rest = false) : places ('.' :: (digits ++ rest)) = some (digits, rest) := by
  obtain ⟨some, all⟩ := isDigits_iff.mp form
  simp only [places, takeWhile_run all stops, dropWhile_run all stops]
  rw [if_neg (by simpa using some)]

theorem exponent_none {text : List Char} (other : startsWith (fun c => c = 'e' || c = 'E') text = false) :
    exponent text = some (none, text) := by
  unfold exponent
  split
  · rename_i mark rest
    rw [startsWith] at other
    rw [if_neg (by simpa using other)]
  · rfl

theorem toList_toString (value : Int) :
    (toString value).toList = (if value < 0 then "-" else "").toList ++ Nat.toDigits 10 value.natAbs := by
  cases value with
  | ofNat n =>
    rw [if_neg (show ¬ Int.ofNat n < 0 from Int.not_lt.mpr (Int.natCast_nonneg n))]
    exact String.toList_ofList
  | negSucc n =>
    rw [if_pos (Int.negSucc_lt_zero n), Int.natAbs_negSucc]
    show ("-" ++ String.ofList (Nat.toDigits 10 (n + 1))).toList = _
    simp only [String.toList_append, String.toList_ofList]

theorem isDigits_toDigits (n : Nat) : isDigits (Nat.toDigits 10 n) = true :=
  isDigits_iff.mpr ⟨Nat.toDigits_ne_nil, toDigits_all n⟩

theorem ne_signed {digits : List Char} (form : isDigits digits = true) {sign : Char} (other : sign.isDigit = false)
    (tail text : List Char) : digits ++ tail ≠ sign :: text := by
  obtain ⟨some, all⟩ := isDigits_iff.mp form
  obtain ⟨c, more, rfl⟩ := List.exists_cons_of_ne_nil some
  rintro same
  cases same
  simp [other] at all

theorem exponent_toString (value : Int) :
    ∃ power, ∀ rest, startsWith Char.isDigit rest = false →
      exponent ('e' :: ((toString value).toList ++ rest)) = some (power, rest) := by
  have form := isDigits_toDigits value.natAbs
  rw [toList_toString]
  generalize Nat.toDigits 10 value.natAbs = digits at form
  obtain ⟨nonempty, all⟩ := isDigits_iff.mp form
  have filled : ¬ digits.isEmpty = true := by simpa using nonempty
  split
  · refine ⟨some (-(digitsValue digits : Int)), fun rest stops => ?_⟩
    have text : "-".toList ++ digits ++ rest = '-' :: (digits ++ rest) := rfl
    rw [text]
    simp only [exponent, takeWhile_run all stops, dropWhile_run all stops]
    rw [if_neg filled]
    rfl
  · refine ⟨some (digitsValue digits : Int), fun rest stops => ?_⟩
    have text : "".toList ++ digits ++ rest = digits ++ rest := rfl
    rw [text, exponent]
    · simp only [takeWhile_run all stops, dropWhile_run all stops]
      rw [if_neg filled]
      rfl
    · exact ne_signed form rfl rest
    · exact ne_signed form rfl rest

theorem numeral_signed (sign : Bool) {whole tail : List Char} (form : IsWhole whole)
    (stops : startsWith Char.isDigit tail = false) :
    numeral ((if sign then "-" else "").toList ++ (whole ++ tail)) =
      (places tail).bind fun fraction => (exponent fraction.2).bind fun power =>
        some (⟨sign, whole, fraction.1, power.1⟩, power.2) := by
  obtain ⟨digits, lead⟩ := form
  obtain ⟨some, all⟩ := isDigits_iff.mp digits
  have short : (whole.isEmpty || decide (1 < whole.length) && decide (whole.head? = Option.some '0')) = false := by
    rcases lead with one | other
    · simp [some, one]
    · simp [some, other]
  cases sign with
  | true =>
    have text : (if true then "-" else "").toList ++ (whole ++ tail) = '-' :: (whole ++ tail) := rfl
    rw [text, numeral]
    simp only [takeWhile_run all stops, dropWhile_run all stops]
    rw [if_neg (Bool.not_eq_true _ ▸ short)]
    rfl
  | false =>
    have text : (if false then "-" else "").toList ++ (whole ++ tail) = whole ++ tail := rfl
    rw [text, numeral]
    · simp only [takeWhile_run all stops, dropWhile_run all stops]
      rw [if_neg (Bool.not_eq_true _ ▸ short)]
      rfl
    · exact ne_signed digits rfl tail

def IsPower (text : List Char) : Prop :=
  ∃ read, ∀ rest, startsWith continuesNumber rest = false →
    startsWith (fun c => c.isDigit || c = '.') (text ++ rest) = false ∧ exponent (text ++ rest) = some (read, rest)

theorem isPower_nil : IsPower [] := by
  refine ⟨none, fun rest stops => ⟨startsWith_mono (fun c more => ?_) stops, exponent_none ?_⟩⟩
  · rw [continuesNumber, more]
    rfl
  · refine startsWith_mono (fun c more => ?_) stops
    rw [continuesNumber, Bool.or_assoc, more, Bool.or_true]

theorem isPower_exponent (value : Int) : IsPower ('e' :: (toString value).toList) := by
  obtain ⟨read, reads⟩ := exponent_toString value
  exact ⟨read, fun rest stops => ⟨rfl, reads rest (startsWith_digit_of_stops stops)⟩⟩

section Signed

variable (sign : Bool) {whole power : List Char}

theorem isNumeral_whole (form : IsWhole whole) (last : IsPower power) :
    IsNumeral ((if sign then "-" else "").toList ++ (whole ++ power)) := by
  obtain ⟨read, reads⟩ := last
  refine ⟨⟨sign, whole, [], read⟩, fun rest stops => ?_⟩
  obtain ⟨other, reads⟩ := reads rest stops
  have digit : startsWith Char.isDigit (power ++ rest) = false := startsWith_mono (by simp +contextual) other
  have point : startsWith (· = '.') (power ++ rest) = false := startsWith_mono (by simp +contextual) other
  rw [List.append_assoc, List.append_assoc, numeral_signed sign form digit, places_none point, Option.bind_some, reads]
  rfl

theorem isNumeral_point {fraction : List Char} (form : IsWhole whole) (digits : isDigits fraction = true)
    (last : IsPower power) :
    IsNumeral ((if sign then "-" else "").toList ++ (whole ++ '.' :: (fraction ++ power))) := by
  obtain ⟨read, reads⟩ := last
  refine ⟨⟨sign, whole, fraction, read⟩, fun rest stops => ?_⟩
  obtain ⟨other, reads⟩ := reads rest stops
  have digit : startsWith Char.isDigit (power ++ rest) = false := startsWith_mono (by simp +contextual) other
  rw [List.append_assoc, List.append_assoc, List.cons_append, List.append_assoc, numeral_signed sign form rfl,
    places_point digits digit, Option.bind_some, reads]
  rfl

end Signed

theorem startsWith_toDigits {n : Nat} (positive : 0 < n) : startsWith (· = '0') (Nat.toDigits 10 n) = false := by
  have single : ∀ n < 10, 0 < n → startsWith (· = '0') [n.digitChar] = false := by decide
  induction n using Nat.strongRecOn with
  | ind n ih =>
    by_cases below : n < 10
    · rw [Nat.toDigits_of_lt_base below]
      exact single n below positive
    · rw [Nat.toDigits_of_base_le (by decide) (by omega), startsWith_append _ _ Nat.toDigits_ne_nil]
      exact ih (n / 10) (by omega) (by omega)

theorem isWhole_of_startsWith {digits : List Char} (form : isDigits digits = true)
    (lead : startsWith (· = '0') digits = false) : IsWhole digits := by
  refine ⟨form, Or.inr ?_⟩
  cases digits with
  | nil => nofun
  | cons c more => simpa [startsWith] using lead

theorem isWhole_toDigits (n : Nat) : IsWhole (Nat.toDigits 10 n) := by
  by_cases zero : n = 0
  · rw [zero]
    exact ⟨rfl, Or.inl rfl⟩
  · exact isWhole_of_startsWith (isDigits_toDigits n) (startsWith_toDigits (Nat.pos_of_ne_zero zero))

theorem isNumeral_integer (value : Int) : IsNumeral (toString value).toList := by
  have signed := isNumeral_whole (value < 0) (isWhole_toDigits value.natAbs) isPower_nil
  rw [List.append_nil] at signed
  rw [toList_toString]
  simpa using signed

end Json

namespace Number

theorem nearestBits_zero (denominator : Nat) : nearestBits 0 denominator = 0 := by
  simp [nearestBits, roundHalfEven]

theorem Decimal.digits_shortest_pos (tie : Tie) {magnitude : Nat} (finite : magnitude < infinityBits)
    (positive : 0 < magnitude) : 0 < (shortest tie magnitude).digits := by
  have back := bits_shortest tie finite
  by_contra none
  have zero : (shortest tie magnitude).numerator = 0 := by
    rw [numerator, Nat.eq_zero_of_not_pos none, Nat.zero_mul]
  rw [bits, zero, nearestBits_zero] at back
  omega

end Number

namespace Json

open Text Number

variable {decimal : Decimal}

theorem plainText_whole (some : 0 < decimal.digits) (whole : 0 ≤ decimal.scale) : IsWhole decimal.plainText := by
  have none : (-decimal.scale).toNat = 0 := by omega
  simp only [Decimal.plainText, none, if_true]
  refine isWhole_of_startsWith (isDigits_append ?_ (toDigits_all _) (replicate_all _)) ?_
  · exact List.append_ne_nil_of_left_ne_nil Nat.toDigits_ne_nil _
  · rw [startsWith_append _ _ Nat.toDigits_ne_nil]
    exact startsWith_toDigits some

theorem plainText_point (some : 0 < decimal.digits) (places : decimal.scale < 0) :
    ∃ whole fraction, decimal.plainText = whole ++ '.' :: fraction ∧ IsWhole whole ∧ isDigits fraction = true := by
  have nonzero : (-decimal.scale).toNat ≠ 0 := by omega
  simp only [Decimal.plainText, if_neg nonzero]
  split
  · rename_i inside
    generalize cut : (Nat.toDigits 10 decimal.digits).length - (-decimal.scale).toNat = place
    have parts := List.take_append_drop place (Nat.toDigits 10 decimal.digits)
    have all := toDigits_all decimal.digits
    have lead := startsWith_toDigits some
    rw [← parts, List.all_append, Bool.and_eq_true] at all
    have before : (Nat.toDigits 10 decimal.digits).take place ≠ [] := by
      rw [← List.length_pos_iff, List.length_take]
      omega
    have after : (Nat.toDigits 10 decimal.digits).drop place ≠ [] := by
      rw [← List.length_pos_iff, List.length_drop]
      omega
    rw [← parts, startsWith_append _ _ before] at lead
    exact ⟨_, _, rfl, isWhole_of_startsWith (isDigits_iff.mpr ⟨before, all.1⟩) lead, isDigits_iff.mpr ⟨after, all.2⟩⟩
  · exact ⟨['0'], _, rfl, ⟨rfl, Or.inl rfl⟩,
      isDigits_append (List.append_ne_nil_of_right_ne_nil _ Nat.toDigits_ne_nil) (replicate_all _) (toDigits_all _)⟩

theorem isNumeral_scientific (sign : Bool) {digits : List Char} (form : isDigits digits = true) (power : Int) :
    IsNumeral ((if sign then "-" else "").toList ++ (digits.take 1 ++
      ((if (digits.drop 1).isEmpty then "" else "." ++ String.ofList (digits.drop 1)).toList ++
        'e' :: (toString power).toList))) := by
  obtain ⟨some, all⟩ := isDigits_iff.mp form
  obtain ⟨first, more, rfl⟩ := List.exists_cons_of_ne_nil some
  rw [List.all_cons, Bool.and_eq_true] at all
  have single : IsWhole [first] := ⟨isDigits_iff.mpr ⟨nofun, by simpa using all.1⟩, Or.inl rfl⟩
  by_cases empty : more = []
  · have signed := isNumeral_whole sign single (isPower_exponent power)
    simpa [empty] using signed
  · have places : isDigits more = true := isDigits_iff.mpr ⟨empty, all.2⟩
    have signed := isNumeral_point sign single places (isPower_exponent power)
    simpa [empty] using signed

theorem isNumeral_floatText {x : Float} (finite : isFinite x = true) : IsNumeral (floatText x).toList := by
  have below : magnitude x < infinityBits := of_decide_eq_true finite
  have zeros : isDigits ['0'] = true := rfl
  simp only [floatText]
  by_cases zero : magnitude x = 0
  · rw [if_pos zero]
    have signed := isNumeral_point (negative x) (⟨rfl, Or.inl rfl⟩ : IsWhole ['0']) zeros isPower_nil
    rw [String.toList_append]
    exact signed
  · rw [if_neg zero]
    have some := Decimal.digits_shortest_pos .even below (Nat.pos_of_ne_zero zero)
    generalize Decimal.shortest .even (magnitude x) = decimal at some
    split
    · rename_i whole
      rw [Bool.and_eq_true, decide_eq_true_eq, decide_eq_true_eq] at whole
      have signed := isNumeral_point (negative x) (plainText_whole some whole.1) zeros isPower_nil
      simpa using signed
    · rename_i other
      split
      · rename_i near
        simp only [Bool.and_eq_true, decide_eq_true_eq] at other near
        obtain ⟨whole, fraction, text, form, digits⟩ := plainText_point some (by omega : decimal.scale < 0)
        have signed := isNumeral_point (negative x) form digits isPower_nil
        rw [text]
        simpa using signed
      · have signed := isNumeral_scientific (negative x) (isDigits_toDigits decimal.digits)
          ((Nat.toDigits 10 decimal.digits).length + decimal.scale - 1)
        simpa using signed

def numberOf? (text : List Char) : Option Json := (numberAt text).map (·.value)

theorem IsNumeral.ne_nil {text : List Char} (form : IsNumeral text) : text ≠ [] := by
  rintro rfl
  obtain ⟨read, reads⟩ := form
  have none : numeral ([] ++ []) = Option.none := rfl
  rw [reads [] rfl] at none
  cases none

theorem found_numberAt {text rest : List Char} (form : IsNumeral text)
    (stops : startsWith continuesNumber rest = false) :
    found (numberAt (text ++ rest)) = (numberOf? text).map (·, rest) := by
  have shorter : 0 < text.length := List.length_pos_iff.mpr form.ne_nil
  obtain ⟨read, reads⟩ := form
  have alone := reads [] rfl
  rw [List.append_nil] at alone
  have room : rest.length < (text ++ rest).length := by
    rw [List.length_append]
    omega
  simp only [numberOf?, numberAt, alone, reads rest stops, Option.bind_eq_bind, Option.bind_some, List.length_nil,
    dif_pos shorter, dif_pos room]
  cases read.value? <;> rfl

theorem IsNumeral.exists_cons {text : List Char} (form : IsNumeral text) :
    ∃ c more, text = c :: more ∧ ∀ other : Char, (other = '-' || other.isDigit) = false → c ≠ other := by
  obtain ⟨c, more, rfl⟩ := List.exists_cons_of_ne_nil form.ne_nil
  refine ⟨c, more, rfl, ?_⟩
  rintro other neither rfl
  rw [Bool.or_eq_false_iff, decide_eq_false_iff_not] at neither
  obtain ⟨read, reads⟩ := form
  have alone := reads [] rfl
  rw [List.append_nil, numeral] at alone
  · simp only [List.takeWhile_cons, neither.2] at alone
    cases alone
  · rintro unsigned same
    cases same
    exact neither.1 rfl

end Json

end TagQuery
