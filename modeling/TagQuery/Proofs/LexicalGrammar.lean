import Mathlib
import TagQuery.Proofs.Numerals
import TagQuery.Token.Lexer

namespace TagQuery

namespace Lexer

open Text Number

def IsWord (text : List Char) : Prop := startsWith isWordStart text = true ∧ text.all isWordChar = true

instance (text : List Char) : Decidable (IsWord text) := inferInstanceAs (Decidable (_ ∧ _))

/-- The texts that can stand for a token, each with its token. -/
inductive IsLexeme : List Char → Token → Prop
  | dot : IsLexeme ['.'] .dot
  | opening : IsLexeme ['('] .opening
  | closing : IsLexeme [')'] .closing
  | keyword {text : List Char} {joining : Keyword} (form : IsWord text)
      (same : text.map Char.toLower = joining.text.toList) : IsLexeme text (.keyword joining)
  | word {text : List Char} (form : IsWord text) (short : byteLength text ≤ 255)
      (free : ∀ joining : Keyword, text.map Char.toLower ≠ joining.text.toList) :
      IsLexeme text (.word (String.ofList text))
  | number {text : List Char} {value : Float} (form : IsNumeral text) (nearest : value = numeralValue text) :
      IsLexeme text (.number (String.ofList text) value)

def StopsNumber (text : List Char) : Prop :=
  startsWith isWordChar text = false ∧ ∀ rest, text = '.' :: rest → startsWith Char.isDigit rest = false

/-- What may follow the lexeme of a token, so that the lexeme is as long as it can be. -/
def Ends : Token → List Char → Prop
  | .keyword _, following | .word _, following => startsWith isWordChar following = false
  | .number _ _, following => StopsNumber following
  | _, _ => True

theorem isWordChar_of_isWordStart (c : Char) (start : isWordStart c = true) : isWordChar c = true := by
  simp only [isWordStart, Bool.or_eq_true, decide_eq_true_eq] at start
  simp only [isWordChar, Char.isAlphanum, Bool.or_eq_true, decide_eq_true_eq]
  exact Or.inl (start.imp Or.inl id)

theorem isWordChar_of_isDigit (c : Char) (digit : c.isDigit = true) : isWordChar c = true := by
  simp [isWordChar, Char.isAlphanum, digit]

theorem not_isWordStart_of_isDigit (c : Char) (digit : c.isDigit = true) : isWordStart c = false := by
  have bounds : 48 ≤ c.toNat ∧ c.toNat ≤ 57 := Char.isDigit_iff_toNat.mp digit
  cases start : isWordStart c with
  | false => rfl
  | true =>
    simp only [isWordStart, Char.isAlpha, Char.isUpper, Char.isLower, Bool.or_eq_true, Bool.and_eq_true,
      decide_eq_true_eq, UInt32.le_iff_toNat_le, ge_iff_le] at start
    rcases start with (upper | lower) | underscore
    · have above : 65 ≤ c.toNat := upper.1
      omega
    · have above : 97 ≤ c.toNat := lower.1
      omega
    · subst underscore
      exact absurd digit (by decide)

theorem startsWithDigit_eq (text : List Char) : startsWithDigit text = startsWith Char.isDigit text := by
  cases text <;> rfl

theorem keyword_ofWord_iff (word : String) (joining : Keyword) :
    Keyword.ofWord? word = some joining ↔ word.toList.map Char.toLower = joining.text.toList := by
  constructor
  · intro found
    simpa using List.find?_some found
  · intro same
    cases joining <;> simp [Keyword.ofWord?, same, Keyword.text]

theorem keyword_ofWord_none (word : String) :
    Keyword.ofWord? word = none ↔ ∀ joining : Keyword, word.toList.map Char.toLower ≠ joining.text.toList := by
  constructor
  · intro none joining same
    rw [(keyword_ofWord_iff word joining).mpr same] at none
    cases none
  · intro free
    cases found : Keyword.ofWord? word with
    | none => rfl
    | some joining => exact absurd ((keyword_ofWord_iff word joining).mp found) (free joining)

theorem byteLength_le (text : List Char) : byteLength text ≤ 4 * text.length := by
  induction text with
  | nil => exact Nat.le_refl 0
  | cons c text ih =>
    have size := c.utf8Size_le_four
    simp only [byteLength, List.length_cons]
    omega

theorem keyword_short {text : List Char} {joining : Keyword} (same : text.map Char.toLower = joining.text.toList) :
    byteLength text ≤ Limits.wordBytes := by
  have length := congrArg List.length same
  rw [List.length_map] at length
  have few : joining.text.toList.length ≤ 3 := by cases joining <;> decide
  have bytes := byteLength_le text
  have limit : Limits.wordBytes = 255 := rfl
  omega

theorem Piece.while_run {test : Char → Bool} {run rest : List Char} (all : run.all test = true)
    (stops : startsWith test rest = false) : Piece.while test (run ++ rest) = ⟨run, rest⟩ := by
  rw [Piece.while, takeWhile_run all stops, dropWhile_run all stops]

theorem Piece.while_append (test : Char → Bool) (text : List Char) :
    (Piece.while test text).taken ++ (Piece.while test text).rest = text := List.takeWhile_append_dropWhile

theorem Piece.while_all (test : Char → Bool) (text : List Char) : (Piece.while test text).taken.all test = true :=
  List.all_takeWhile

theorem Piece.while_stops (test : Char → Bool) (text : List Char) :
    startsWith test (Piece.while test text).rest = false := startsWith_dropWhile test text

theorem Piece.while_ne_nil {test : Char → Bool} {text : List Char} (starts : startsWith test text = true) :
    (Piece.while test text).taken ≠ [] := by
  cases text with
  | nil => cases starts
  | cons c text =>
    have first : test c = true := starts
    simp [Piece.while, first]

theorem word_ok_iff {offset : Nat} {found : Lexeme} (text : List Char) (starts : startsWith isWordStart text = true) :
    word offset text = .ok found ↔
      found.taken ++ found.rest = text ∧ IsWord found.taken ∧ byteLength found.taken ≤ Limits.wordBytes ∧
        found.token = .ofWord (String.ofList found.taken) ∧ startsWith isWordChar found.rest = false := by
  constructor
  · intro read
    simp only [word] at read
    split at read
    · cases read
    · rename_i fits
      cases read
      have whole := Piece.while_append isWordChar text
      have wordly : startsWith isWordChar text = true := by
        cases text with
        | nil => exact starts
        | cons c text => exact isWordChar_of_isWordStart c starts
      have kept := startsWith_append isWordStart (Piece.while isWordChar text).rest
        (Piece.while_ne_nil wordly)
      rw [whole] at kept
      exact ⟨whole, ⟨kept.symm.trans starts, Piece.while_all isWordChar text⟩, Nat.le_of_not_lt fits, rfl,
        Piece.while_stops isWordChar text⟩
  · rintro ⟨rfl, form, short, named, stops⟩
    obtain ⟨token, taken, rest⟩ := found
    obtain rfl : token = .ofWord (String.ofList taken) := named
    simp only [word, Piece.while_run form.2 stops]
    rw [if_neg (Nat.not_lt.mpr short)]

theorem isLexeme_word {text : List Char} (form : IsWord text) (short : byteLength text ≤ Limits.wordBytes) :
    IsLexeme text (.ofWord (String.ofList text)) := by
  unfold Token.ofWord
  split
  · rename_i joining found
    rw [keyword_ofWord_iff, String.toList_ofList] at found
    exact .keyword form found
  · rename_i none
    rw [keyword_ofWord_none, String.toList_ofList] at none
    exact .word form short none

theorem ends_ofWord (word : String) (following : List Char) :
    Ends (.ofWord word) following ↔ startsWith isWordChar following = false := by
  unfold Token.ofWord
  split <;> exact Iff.rfl

theorem fraction_point {places rest : List Char} (form : isDigits places = true)
    (stops : startsWith Char.isDigit rest = false) :
    fraction ('.' :: (places ++ rest)) = ⟨'.' :: places, rest⟩ := by
  obtain ⟨nonempty, all⟩ := isDigits_iff.mp form
  have digit : startsWithDigit (places ++ rest) = true := by
    rw [startsWithDigit_eq, startsWith_append _ rest nonempty, startsWith_of_all nonempty all]
  simp only [fraction, digit, if_true, Piece.while_run all stops, Piece.after, List.cons_append, List.nil_append]

theorem fraction_none {text : List Char} (stops : ∀ rest, text = '.' :: rest → startsWith Char.isDigit rest = false) :
    fraction text = ⟨[], text⟩ := by
  unfold fraction
  split
  · rename_i rest
    rw [startsWithDigit_eq, stops rest rfl]
    rfl
  · rfl

theorem fraction_spec (text : List Char) :
    fraction text = ⟨[], text⟩ ∨
      ∃ places rest, isDigits places = true ∧ text = '.' :: (places ++ rest) ∧
        fraction text = ⟨'.' :: places, rest⟩ := by
  unfold fraction
  split
  · rename_i rest
    split
    · rename_i digit
      rw [startsWithDigit_eq] at digit
      refine Or.inr ⟨(Piece.while Char.isDigit rest).taken, (Piece.while Char.isDigit rest).rest, ?_, ?_, rfl⟩
      · exact isDigits_iff.mpr ⟨Piece.while_ne_nil digit, Piece.while_all Char.isDigit rest⟩
      · rw [Piece.while_append]
    · exact Or.inl rfl
  · exact Or.inl rfl

theorem startsWith_digit_of_word {text : List Char} (stops : startsWith isWordChar text = false) :
    startsWith Char.isDigit text = false := startsWith_mono isWordChar_of_isDigit stops

theorem unsignedNumber_run {text rest : List Char} (form : IsUnsigned text) (stops : StopsNumber rest) :
    unsignedNumber (text ++ rest) = ⟨text, rest⟩ := by
  have noDigit := startsWith_digit_of_word stops.1
  rcases form with form | ⟨whole, places, first, second, rfl⟩
  · have all := (isDigits_iff.mp form).2
    simp only [unsignedNumber, Piece.while_run all noDigit, fraction_none stops.2, Piece.after, List.append_nil]
  · have all := (isDigits_iff.mp first).2
    have point : startsWith Char.isDigit ('.' :: (places ++ rest)) = false := rfl
    rw [List.append_assoc, List.cons_append]
    simp only [unsignedNumber, Piece.while_run all point, fraction_point second noDigit, Piece.after]

theorem unsignedNumber_spec {text : List Char} (starts : startsWith Char.isDigit text = true) :
    IsUnsigned (unsignedNumber text).taken ∧ (unsignedNumber text).taken ++ (unsignedNumber text).rest = text := by
  have form : isDigits (Piece.while Char.isDigit text).taken = true :=
    isDigits_iff.mpr ⟨Piece.while_ne_nil starts, Piece.while_all Char.isDigit text⟩
  have whole := Piece.while_append Char.isDigit text
  rcases fraction_spec (Piece.while Char.isDigit text).rest with none | ⟨places, rest, second, point, some⟩
  · simp only [unsignedNumber, none, Piece.after, List.append_nil]
    exact ⟨Or.inl form, whole⟩
  · simp only [unsignedNumber, some, Piece.after]
    refine ⟨Or.inr ⟨_, places, form, second, rfl⟩, ?_⟩
    rw [point] at whole
    simpa using whole

theorem number_run {text rest : List Char} (form : IsNumeral text) (stops : StopsNumber rest) :
    number (text ++ rest) = ⟨text, rest⟩ := by
  rcases form with form | ⟨unsigned, form, rfl⟩
  · unfold number
    split
    · rename_i tail same
      cases text with
      | nil => exact absurd form.starts (by decide)
      | cons c text =>
        obtain ⟨rfl, _⟩ := List.cons.inj same
        exact absurd rfl (form.ne_cons (by decide) text)
    · exact unsignedNumber_run form stops
  · simp only [List.cons_append, number, unsignedNumber_run form stops, Piece.after, List.nil_append]

def startsNumber : List Char → Bool
  | [] => false
  | first :: rest => first.isDigit || (first = '-' && startsWithDigit rest)

theorem number_spec {text : List Char} (starts : startsNumber text = true) :
    IsNumeral (number text).taken ∧ (number text).taken ++ (number text).rest = text := by
  unfold number
  split
  · rename_i rest
    have digit : startsWith Char.isDigit rest = true := by
      rw [← startsWithDigit_eq]
      simpa [startsNumber] using starts
    obtain ⟨form, whole⟩ := unsignedNumber_spec digit
    exact ⟨Or.inr ⟨_, form, rfl⟩, congrArg ('-' :: ·) whole⟩
  · rename_i other
    have digit : startsWith Char.isDigit text = true := by
      cases text with
      | nil => cases starts
      | cons first rest =>
        have notMinus : first ≠ '-' := fun same => other rest (congrArg (· :: rest) same)
        simpa [startsNumber, startsWith, notMinus] using starts
    obtain ⟨form, whole⟩ := unsignedNumber_spec digit
    exact ⟨Or.inl form, whole⟩

theorem glued_nil_iff (text : List Char) : (glued text).taken.isEmpty = true ↔ StopsNumber text := by
  cases text with
  | nil => simp [glued, StopsNumber, startsWith]
  | cons c rest =>
    unfold glued StopsNumber
    split
    · rename_i goes
      rw [startsWithDigit_eq] at goes
      simp only [Piece.after, List.cons_append, List.isEmpty_cons, Bool.false_eq_true, false_iff, not_and]
      intro stops point
      rw [show isWordChar c = false from stops, Bool.false_or, Bool.and_eq_true, decide_eq_true_eq] at goes
      obtain ⟨rfl, digit⟩ := goes
      rw [point rest rfl] at digit
      cases digit
    · rename_i stays
      rw [startsWithDigit_eq, Bool.or_eq_true, Bool.and_eq_true, decide_eq_true_eq, not_or, not_and] at stays
      simp only [List.isEmpty_nil, true_iff]
      refine ⟨by simpa [startsWith] using stays.1, ?_⟩
      rintro tail same
      obtain ⟨rfl, rfl⟩ := List.cons.inj same
      simpa using stays.2 rfl

theorem numeral_ok_iff {offset : Nat} {found : Lexeme} (text : List Char) (starts : startsNumber text = true) :
    numeral offset text = .ok found ↔
      found.taken ++ found.rest = text ∧ IsNumeral found.taken ∧ StopsNumber found.rest ∧
        found.token = .number (String.ofList found.taken) (numeralValue found.taken) := by
  constructor
  · intro read
    obtain ⟨form, whole⟩ := number_spec starts
    simp only [numeral, double?_of_isNumeral form] at read
    split at read
    · rename_i stops
      cases read
      exact ⟨whole, form, (glued_nil_iff _).mp stops, rfl⟩
    · cases read
  · rintro ⟨rfl, form, stops, named⟩
    obtain ⟨token, taken, rest⟩ := found
    obtain rfl : token = .number (String.ofList taken) (numeralValue taken) := named
    simp only [numeral, number_run form stops, (glued_nil_iff rest).mpr stops, if_true, double?_of_isNumeral form]

theorem startsNumber_append {text : List Char} (form : IsNumeral text) (rest : List Char) :
    startsNumber (text ++ rest) = true := by
  rcases form with form | ⟨unsigned, form, rfl⟩
  · have digit := form.starts
    cases text with
    | nil => cases digit
    | cons c text => simp [startsNumber, show c.isDigit = true from digit]
  · have digit := form.starts
    cases unsigned with
    | nil => cases digit
    | cons c text => simp [startsNumber, startsWithDigit, show c.isDigit = true from digit]

theorem not_isWordStart_of_number {first : Char} {rest : List Char} (starts : startsNumber (first :: rest) = true) :
    isWordStart first = false := by
  simp only [startsNumber, Bool.or_eq_true, Bool.and_eq_true, decide_eq_true_eq] at starts
  rcases starts with digit | ⟨rfl, _⟩
  · exact not_isWordStart_of_isDigit first digit
  · decide

theorem numeral_starts {text : List Char} (form : IsNumeral text) :
    startsNumber text = true ∧ startsWith isWordStart text = false := by
  have starts := startsNumber_append form []
  rw [List.append_nil] at starts
  cases text with
  | nil => cases starts
  | cons first rest => exact ⟨starts, not_isWordStart_of_number starts⟩

theorem lexeme_ok_iff {offset : Nat} {first : Char} {rest : List Char} {found : Lexeme} :
    lexeme offset first rest = .ok found ↔
      found.taken ++ found.rest = first :: rest ∧ IsLexeme found.taken found.token ∧ Ends found.token found.rest := by
  constructor
  · intro read
    unfold lexeme at read
    split at read
    · rename_i start
      obtain ⟨whole, form, short, named, stops⟩ := (word_ok_iff (first :: rest) start).mp read
      rw [named]
      exact ⟨whole, isLexeme_word form short, (ends_ofWord _ _).mpr stops⟩
    · split at read
      · rename_i start
        obtain ⟨whole, form, stops, named⟩ := (numeral_ok_iff (first :: rest) start).mp read
        rw [named]
        exact ⟨whole, .number form rfl, stops⟩
      · split at read
        · rename_i same
          cases read
          exact ⟨rfl, same ▸ .dot, trivial⟩
        · split at read
          · rename_i same
            cases read
            exact ⟨rfl, same ▸ .opening, trivial⟩
          · split at read
            · rename_i same
              cases read
              exact ⟨rfl, same ▸ .closing, trivial⟩
            · cases read
  · obtain ⟨token, taken, following⟩ := found
    dsimp only
    rintro ⟨whole, form, ends⟩
    have wordly (form : IsWord taken) : isWordStart first = true := by
      obtain ⟨starts, -⟩ := form
      cases taken with
      | nil => cases starts
      | cons c taken =>
        obtain ⟨rfl, -⟩ := List.cons.inj whole
        exact starts
    cases form with
    | dot | opening | closing =>
      obtain ⟨rfl, rfl⟩ := List.cons.inj whole
      rfl
    | @keyword text joining form same =>
      have named : Token.ofWord (String.ofList taken) = .keyword joining := by
        have found : Keyword.ofWord? (String.ofList taken) = some joining := by
          rw [keyword_ofWord_iff, String.toList_ofList, same]
        simp only [Token.ofWord, found]
      rw [lexeme, if_pos (wordly form)]
      exact (word_ok_iff (first :: rest) (wordly form)).mpr ⟨whole, form, keyword_short same, named.symm, ends⟩
    | word form short free =>
      have named : Token.ofWord (String.ofList taken) = .word (String.ofList taken) := by
        have none : Keyword.ofWord? (String.ofList taken) = none := by
          rw [keyword_ofWord_none, String.toList_ofList]
          exact free
        simp only [Token.ofWord, none]
      rw [lexeme, if_pos (wordly form)]
      exact (word_ok_iff (first :: rest) (wordly form)).mpr ⟨whole, form, short, named.symm, ends⟩
    | number form nearest =>
      have starts : startsNumber (first :: rest) = true := by
        rw [← whole]
        exact startsNumber_append form following
      have numeric : (first.isDigit || (decide (first = '-') && startsWithDigit rest)) = true := starts
      rw [lexeme, if_neg (by simp [not_isWordStart_of_number starts]), if_pos numeric]
      exact (numeral_ok_iff _ starts).mpr ⟨whole, form, ends, congrArg _ nearest⟩

theorem IsLexeme.ne_nil {text : List Char} {token : Token} (form : IsLexeme text token) : text ≠ [] := by
  rintro rfl
  cases form with
  | keyword form | word form => cases form.1
  | number form =>
    rcases form with form | ⟨_, _, same⟩
    · cases form.starts
    · cases same

theorem IsLexeme.no_gap {text : List Char} {token : Token} (form : IsLexeme text token) (rest : List Char) :
    startsWith isGap (text ++ rest) = false := by
  have known (c : Char) (gap : isGap c = true) : c = ' ' ∨ c = '\t' ∨ c = '\n' ∨ c = '\x0c' ∨ c = '\r' := by
    simpa [isGap, or_assoc] using gap
  have word (c : Char) (start : isWordStart c = true) : isGap c = false := by
    cases gap : isGap c with
    | false => rfl
    | true => rcases known c gap with rfl | rfl | rfl | rfl | rfl <;> exact absurd start (by decide)
  have digit (c : Char) (digit : c.isDigit = true) : isGap c = false := by
    cases gap : isGap c with
    | false => rfl
    | true => rcases known c gap with rfl | rfl | rfl | rfl | rfl <;> exact absurd digit (by decide)
  rw [startsWith_append _ rest form.ne_nil]
  cases form with
  | dot | opening | closing => decide
  | keyword form | word form => exact startsWith_disjoint word form.1
  | number form =>
    rcases form with form | ⟨rest, form, rfl⟩
    · exact startsWith_disjoint digit form.starts
    · rfl

/-- A text begins with at most one lexeme that nothing after it could prolong. -/
theorem IsLexeme.unique {text text' rest rest' : List Char} {token token' : Token} (whole : text ++ rest = text' ++ rest')
    (form : IsLexeme text token) (ends : Ends token rest) (form' : IsLexeme text' token') (ends' : Ends token' rest') :
    text = text' ∧ rest = rest' ∧ token = token' := by
  cases text with
  | nil => exact absurd rfl form.ne_nil
  | cons first tail =>
    have one : lexeme 0 first (tail ++ rest) = .ok ⟨token, first :: tail, rest⟩ :=
      lexeme_ok_iff.mpr ⟨rfl, form, ends⟩
    have other : lexeme 0 first (tail ++ rest) = .ok ⟨token', text', rest'⟩ :=
      lexeme_ok_iff.mpr ⟨whole.symm, form', ends'⟩
    rw [one] at other
    cases other
    exact ⟨rfl, rfl, rfl⟩

theorem isLexeme_literal {text : String} {value : Float} (read : literal? text.toList = some value) :
    IsLexeme text.toList (.number text value) := by
  obtain ⟨form, nearest⟩ := literal?_eq_some_iff.mp read
  have lexeme := IsLexeme.number form nearest
  rwa [String.ofList_toList] at lexeme

theorem IsLexeme.token_ne_eof {text : List Char} {token : Token} (form : IsLexeme text token) : token ≠ .eof := by
  cases form <;> nofun

end Lexer

end TagQuery
