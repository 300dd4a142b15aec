import Mathlib.Data.List.TakeWhile
import TagQuery.Number.Literal

namespace TagQuery.Text

def startsWith (test : Char → Bool) : List Char → Bool
  | c :: _ => test c
  | [] => false

theorem startsWith_append (test : Char → Bool) {front : List Char} (rest : List Char) (nonempty : front ≠ []) :
    startsWith test (front ++ rest) = startsWith test front := by
  cases front with
  | nil => exact absurd rfl nonempty
  | cons c front => rfl

theorem startsWith_of_all {test : Char → Bool} {text : List Char} (nonempty : text ≠ [])
    (all : text.all test = true) : startsWith test text = true := by
  cases text with
  | nil => exact absurd rfl nonempty
  | cons c text =>
    rw [List.all_cons, Bool.and_eq_true] at all
    exact all.1

theorem startsWith_disjoint {first second : Char → Bool} {text : List Char}
    (disjoint : ∀ c, first c = true → second c = false) (starts : startsWith first text = true) :
    startsWith second text = false := by
  cases text with
  | nil => rfl
  | cons c text => exact disjoint c starts

theorem startsWith_mono {first second : Char → Bool} {text : List Char}
    (within : ∀ c, first c = true → second c = true) (stops : startsWith second text = false) :
    startsWith first text = false := by
  cases text with
  | nil => rfl
  | cons c text =>
    cases holds : first c with
    | false => exact holds
    | true => exact absurd (within c holds) (by simpa [startsWith] using stops)

theorem startsWith_dropWhile (test : Char → Bool) (text : List Char) :
    startsWith test (text.dropWhile test) = false := by
  have head := List.head?_dropWhile_not test text
  cases rest : text.dropWhile test with
  | nil => rfl
  | cons c tail => simpa [rest, startsWith] using head

theorem takeWhile_run {test : Char → Bool} {run rest : List Char} (all : run.all test = true)
    (stops : startsWith test rest = false) : (run ++ rest).takeWhile test = run := by
  rw [List.takeWhile_append_of_pos (List.all_eq_true.mp all)]
  cases rest with
  | nil => simp
  | cons c rest =>
    rw [List.takeWhile_cons_of_neg (by simpa [startsWith] using stops), List.append_nil]

theorem dropWhile_run {test : Char → Bool} {run rest : List Char} (all : run.all test = true)
    (stops : startsWith test rest = false) : (run ++ rest).dropWhile test = rest := by
  rw [List.dropWhile_append_of_pos (List.all_eq_true.mp all)]
  cases rest with
  | nil => rfl
  | cons c rest => exact List.dropWhile_cons_of_neg (by simpa [startsWith] using stops)

end TagQuery.Text

namespace TagQuery.Number

open Text

def IsUnsigned (text : List Char) : Prop :=
  isDigits text = true ∨
    ∃ whole places, isDigits whole = true ∧ isDigits places = true ∧ text = whole ++ '.' :: places

/-- The texts `-?digits(.digits)?`. -/
def IsNumeral (text : List Char) : Prop := IsUnsigned text ∨ ∃ rest, IsUnsigned rest ∧ text = '-' :: rest

theorem isDigits_iff {text : List Char} : isDigits text = true ↔ text ≠ [] ∧ text.all Char.isDigit = true := by
  simp [isDigits]

theorem ne_of_isDigit {c mark : Char} (digit : c.isDigit = true) (other : mark.isDigit = false) : c ≠ mark := by
  rintro rfl
  rw [digit] at other
  cases other

theorem digits_no_point {digits : List Char} (all : digits.all Char.isDigit = true) :
    digits.all (fun c => decide (c ≠ '.')) = true :=
  List.all_eq_true.mpr fun c member => decide_eq_true (ne_of_isDigit (List.all_eq_true.mp all c member) (by decide))

theorem dropWhile_no_point {digits : List Char} (all : digits.all Char.isDigit = true) :
    digits.dropWhile (fun c => decide (c ≠ '.')) = [] :=
  List.dropWhile_eq_nil_iff.mpr (List.all_eq_true.mp (digits_no_point all))

theorem toLower_of_isDigit (c : Char) (digit : c.isDigit = true) : c.toLower = c := by
  have bounds : 48 ≤ c.toNat ∧ c.toNat ≤ 57 := Char.isDigit_iff_toNat.mp digit
  refine dif_neg fun upper => ?_
  have above : 65 ≤ c.toNat := UInt32.le_iff_toNat_le.mp upper.1
  omega

theorem splitPoint_digits {digits : List Char} (all : digits.all Char.isDigit = true) :
    splitPoint digits = (digits, none) := by
  simp only [splitPoint, dropWhile_no_point all]

theorem splitPoint_point {whole : List Char} (all : whole.all Char.isDigit = true) (rest : List Char) :
    splitPoint (whole ++ '.' :: rest) = (whole, some rest) := by
  have stops : startsWith (fun c => decide (c ≠ '.')) ('.' :: rest) = false := by simp [startsWith]
  simp only [splitPoint, dropWhile_run (digits_no_point all) stops, takeWhile_run (digits_no_point all) stops]

theorem splitPoint_none {text whole : List Char} (split : splitPoint text = (whole, none)) : whole = text := by
  unfold splitPoint at split
  split at split
  · exact (Prod.mk.inj split).1.symm
  · simp at split

theorem splitPoint_some {text whole places : List Char} (split : splitPoint text = (whole, some places)) :
    text = whole ++ '.' :: places := by
  unfold splitPoint at split
  split at split
  · simp at split
  · rename_i point rest dropped
    obtain ⟨rfl, same⟩ := Prod.mk.inj split
    obtain rfl := Option.some.inj same
    have stops := startsWith_dropWhile (fun c => decide (c ≠ '.')) text
    rw [dropped] at stops
    obtain rfl : point = '.' := by simpa [startsWith] using stops
    rw [← dropped, List.takeWhile_append_dropWhile]

theorem digits_and_places_iff (text : List Char) :
    (isDigits (splitPoint text).1 && (splitPoint text).2.all isDigits) = true ↔ IsUnsigned text := by
  constructor
  · intro both
    rw [Bool.and_eq_true] at both
    obtain ⟨first, second⟩ := both
    cases parts : splitPoint text with
    | mk whole places =>
      rw [parts] at first second
      cases places with
      | none =>
        obtain rfl := splitPoint_none parts
        exact Or.inl first
      | some places => exact Or.inr ⟨whole, places, first, second, splitPoint_some parts⟩
  · rintro (form | ⟨whole, places, first, second, rfl⟩)
    · rw [splitPoint_digits (isDigits_iff.mp form).2, form]
      rfl
    · rw [splitPoint_point (isDigits_iff.mp first).2, first, Option.all_some, second]
      rfl

theorem IsUnsigned.starts {text : List Char} (form : IsUnsigned text) : startsWith Char.isDigit text = true := by
  rcases form with form | ⟨whole, places, first, second, rfl⟩
  · exact startsWith_of_all (isDigits_iff.mp form).1 (isDigits_iff.mp form).2
  · rw [startsWith_append _ _ (isDigits_iff.mp first).1]
    exact startsWith_of_all (isDigits_iff.mp first).1 (isDigits_iff.mp first).2

theorem IsUnsigned.not_starts {text : List Char} {mark : Char} (form : IsUnsigned text) (other : mark.isDigit = false) :
    startsWith (fun c => decide (c = mark)) text = false :=
  startsWith_disjoint (fun _ digit => decide_eq_false (ne_of_isDigit digit other)) form.starts

theorem IsUnsigned.ne_cons {text : List Char} {mark : Char} (form : IsUnsigned text) (other : mark.isDigit = false)
    (rest : List Char) : text ≠ mark :: rest := by
  rintro rfl
  exact ne_of_isDigit form.starts other rfl

theorem isLiteral_iff (text : List Char) : isLiteral text = true ↔ IsNumeral text := by
  unfold isLiteral
  split
  · rename_i rest
    refine (digits_and_places_iff rest).trans ⟨fun form => Or.inr ⟨rest, form, rfl⟩, ?_⟩
    rintro (form | ⟨unsigned, form, same⟩)
    · exact absurd rfl (form.ne_cons (by decide) rest)
    · obtain ⟨-, rfl⟩ := List.cons.inj same
      exact form
  · rename_i other
    refine (digits_and_places_iff text).trans ⟨Or.inl, ?_⟩
    rintro (form | ⟨unsigned, -, same⟩)
    · exact form
    · exact absurd same (other unsigned)

instance (text : List Char) : Decidable (IsNumeral text) := decidable_of_iff _ (isLiteral_iff text)

def numeralDecimal (text : List Char) : Decimal :=
  ⟨digitsValue (text.filter Char.isDigit), -(((text.dropWhile (· ≠ '.')).drop 1).length : Int)⟩

/-- The double nearest to what a numeral spells. -/
def numeralValue (text : List Char) : Float := (numeralDecimal text).toFloat (startsWith (· = '-') text)

def literal? (text : List Char) : Option Float := if IsNumeral text then some (numeralValue text) else none

theorem literal?_eq_some_iff {text : List Char} {value : Float} :
    literal? text = some value ↔ IsNumeral text ∧ value = numeralValue text := by
  unfold literal?
  split
  · rename_i form
    rw [Option.some.injEq, and_iff_right form, eq_comm]
  · rename_i other
    exact iff_of_false nofun fun both => other both.1

theorem literal?_of_isNumeral {text : List Char} (form : IsNumeral text) : literal? text = some (numeralValue text) :=
  if_pos form

theorem isNumeral_of_literal? {text : List Char} {value : Float} (read : literal? text = some value) : IsNumeral text :=
  (literal?_eq_some_iff.mp read).1

theorem isSome_literal? (text : List Char) : (literal? text).isSome = isLiteral text := by
  rw [Bool.eq_iff_iff, isLiteral_iff, Option.isSome_iff_exists]
  exact ⟨fun ⟨_, read⟩ => isNumeral_of_literal? read, fun form => ⟨_, literal?_of_isNumeral form⟩⟩

theorem filter_digits {digits : List Char} (all : digits.all Char.isDigit = true) :
    digits.filter Char.isDigit = digits := List.filter_eq_self.mpr (List.all_eq_true.mp all)

theorem numeralDecimal_digits {digits : List Char} (form : isDigits digits = true) :
    numeralDecimal digits = ⟨digitsValue digits, 0⟩ := by
  have all := (isDigits_iff.mp form).2
  rw [numeralDecimal, filter_digits all, dropWhile_no_point all]
  rfl

theorem numeralDecimal_point {whole places : List Char} (first : isDigits whole = true) (second : isDigits places = true) :
    numeralDecimal (whole ++ '.' :: places) = ⟨digitsValue (whole ++ places), -(places.length : Int)⟩ := by
  have all := (isDigits_iff.mp first).2
  have stops : startsWith (fun c => decide (c ≠ '.')) ('.' :: places) = false := rfl
  have point : ('.' :: places).filter Char.isDigit = places := filter_digits (isDigits_iff.mp second).2
  rw [numeralDecimal, List.filter_append, filter_digits all, point, dropWhile_run (digits_no_point all) stops]
  rfl

theorem numeralValue_unsigned {text : List Char} (form : IsUnsigned text) :
    numeralValue text = (numeralDecimal text).toFloat false := by
  have plain : startsWith (fun c => decide (c = '-')) text = false := form.not_starts (by decide)
  rw [numeralValue, plain]

theorem decimal?_unsigned {text : List Char} (form : IsUnsigned text) : decimal? text = some (numeralDecimal text) := by
  rcases form with form | ⟨whole, places, first, second, rfl⟩
  · have all := List.all_eq_true.mp (isDigits_iff.mp form).2
    have taken : text.takeWhile Char.isDigit = text := List.takeWhile_eq_self_iff.mpr all
    have dropped : text.dropWhile Char.isDigit = [] := List.dropWhile_eq_nil_iff.mpr all
    rw [numeralDecimal_digits form]
    simp [decimal?, taken, dropped, (isDigits_iff.mp form).1, exponent?]
  · have all := List.all_eq_true.mp (isDigits_iff.mp second).2
    have taken : places.takeWhile Char.isDigit = places := List.takeWhile_eq_self_iff.mpr all
    have dropped : places.dropWhile Char.isDigit = [] := List.dropWhile_eq_nil_iff.mpr all
    have point : startsWith Char.isDigit ('.' :: places) = false := rfl
    rw [numeralDecimal_point first second]
    simp [decimal?, takeWhile_run (isDigits_iff.mp first).2 point, dropWhile_run (isDigits_iff.mp first).2 point,
      taken, dropped, (isDigits_iff.mp first).1, exponent?]

theorem double?_of_split {text unsigned : List Char} {negative : Bool} (form : IsUnsigned unsigned)
    (split : splitSign text = (negative, unsigned)) :
    double? text = some ((numeralDecimal unsigned).toFloat negative) := by
  have starts := form.starts
  cases unsigned with
  | nil => cases starts
  | cons first rest =>
    have digit : first.isDigit = true := starts
    -- Only an infinity or what is no number is spelled as a word, and no digit is a letter in lower case.
    have other (word : List Char) (letter : startsWith (fun c => c = 'i' || c = 'n') word = true) :
        (first :: rest).map Char.toLower ≠ word := by
      rintro rfl
      have lower : first.toLower = first := toLower_of_isDigit first digit
      have same : first = 'i' ∨ first = 'n' := by simpa [startsWith, lower] using letter
      rcases same with rfl | rfl <;> exact absurd digit (by decide)
    have inf := other "inf".toList (by decide)
    have infinity := other "infinity".toList (by decide)
    have nan := other "nan".toList (by decide)
    simp only [double?, split, inf, infinity, nan, decide_false, Bool.or_self, Bool.false_eq_true, if_false,
      decimal?_unsigned form, Option.map_some]

theorem double?_of_isNumeral {text : List Char} (form : IsNumeral text) : double? text = some (numeralValue text) := by
  rcases form with form | ⟨rest, form, rfl⟩
  · have split : splitSign text = (false, text) := by
      unfold splitSign
      split
      · exact absurd rfl (form.ne_cons (by decide) _)
      · exact absurd rfl (form.ne_cons (by decide) _)
      · rfl
    rw [double?_of_split form split, numeralValue_unsigned form]
  · have split : splitSign ('-' :: rest) = (true, rest) := rfl
    rw [double?_of_split form split]
    rfl

end TagQuery.Number
