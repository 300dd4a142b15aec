import TagQuery.Json.Reader
import TagQuery.Json.Writer

namespace TagQuery

namespace Text.Reading

variable {α β : Type} {text : List Char}

def parts (reading : Reading α text) : α × List Char := (reading.value, reading.rest)

@[simp] theorem parts_map (f : α → β) (reading : Reading α text) :
    (reading.map f).parts = (f reading.value, reading.rest) := rfl

@[simp] theorem parts_within {longer : List Char} (reading : Reading α text) (le : text.length ≤ longer.length) :
    (reading.within le).parts = reading.parts := rfl

end Text.Reading

namespace Json

open Text

def found {α : Type} {text : List Char} (reading : Option (Reading α text)) : Option (α × List Char) :=
  reading.map Reading.parts

theorem found_stringBody_plain {c : Char} (text : List Char) (quote : c ≠ '"') (backslash : c ≠ '\\')
    (printed : ¬ c.toNat < 0x20) :
    found (stringBody (c :: text)) = (found (stringBody text)).map (Prod.map (c :: ·) id) := by
  rw [stringBody]
  · rw [if_neg printed]
    cases stringBody text <;> rfl
  · exact quote
  · exact backslash

theorem found_stringBody_escape {c : Char} (mark : List Char) {text : List Char}
    (means : found (escape (mark ++ text)) = some (c, text)) :
    found (stringBody ('\\' :: (mark ++ text))) = (found (stringBody text)).map (Prod.map (c :: ·) id) := by
  obtain ⟨⟨value, rest, shorter⟩, read, same⟩ := Option.map_eq_some_iff.mp means
  obtain ⟨rfl, rfl⟩ := Prod.mk.inj (show (value, rest) = (c, text) from same)
  rw [stringBody, read]
  show Option.map Reading.parts ((stringBody rest).bind _) = _
  cases body : stringBody rest <;> rfl

theorem hexDigit?_hexDigit {value : Nat} (below : value < 16) : hexDigit? (hexDigit value) = some value := by
  revert below value
  decide

theorem found_unicodeEscape {c : Char} (control : c.toNat < 0x20) (text : List Char) :
    found (unicodeEscape ('0' :: '0' :: hexDigit (c.toNat / 16) :: hexDigit (c.toNat % 16) :: text)) =
      some (c, text) := by
  have high := hexDigit?_hexDigit (show c.toNat / 16 < 16 by omega)
  have low := hexDigit?_hexDigit (show c.toNat % 16 < 16 by omega)
  have zero : hexDigit? '0' = some 0 := by decide
  have value : ((0 * 16 + 0) * 16 + c.toNat / 16) * 16 + c.toNat % 16 = c.toNat := by omega
  have unit : hexUnit? '0' '0' (hexDigit (c.toNat / 16)) (hexDigit (c.toNat % 16)) = some c.toNat := by
    simp only [hexUnit?, zero, high, low, Option.bind_eq_bind, Option.bind_some, value]
    rfl
  simp only [unicodeEscape, unit, Option.bind_eq_bind, Option.bind_some]
  rw [if_neg (by simp; omega), if_neg (by simp; omega)]
  exact congrArg (fun char => some (char, text)) (Char.ofNat_toNat c)

theorem found_escape_control {c : Char} (control : c.toNat < 0x20) (text : List Char) :
    found (escape (['u', '0', '0', hexDigit (c.toNat / 16), hexDigit (c.toNat % 16)] ++ text)) = some (c, text) := by
  have unit := found_unicodeEscape control text
  rw [← unit]
  show found (Option.map _ _) = _
  simp only [found, Option.map_map]
  rfl

theorem found_stringBody_escaped (c : Char) (text : List Char) :
    found (stringBody (escaped c ++ text)) = (found (stringBody text)).map (Prod.map (c :: ·) id) := by
  fun_cases escaped c with
  | case1 => exact found_stringBody_escape ['"'] rfl
  | case2 => exact found_stringBody_escape ['\\'] rfl
  | case3 => exact found_stringBody_escape ['b'] rfl
  | case4 => exact found_stringBody_escape ['f'] rfl
  | case5 => exact found_stringBody_escape ['n'] rfl
  | case6 => exact found_stringBody_escape ['r'] rfl
  | case7 => exact found_stringBody_escape ['t'] rfl
  | case8 _ _ _ _ _ _ _ _ control => exact found_stringBody_escape _ (found_escape_control control text)
  | case9 _ quote backslash _ _ _ _ _ printed => exact found_stringBody_plain text quote backslash printed

theorem found_stringBody (chars rest : List Char) :
    found (stringBody (chars.flatMap escaped ++ '"' :: rest)) = some (chars, rest) := by
  induction chars with
  | nil =>
    rw [List.flatMap_nil, List.nil_append, stringBody]
    rfl
  | cons c chars ih =>
    rw [List.flatMap_cons, List.append_assoc, found_stringBody_escaped, ih]
    rfl

theorem found_stringAt (text : String) (rest : List Char) :
    found (stringAt ((quoted text).toList ++ rest)) = some (text, rest) := by
  have body := found_stringBody text.toList rest
  have form : (quoted text).toList ++ rest = '"' :: (text.toList.flatMap escaped ++ '"' :: rest) := by
    simp [quoted]
  obtain ⟨reading, read, same⟩ := Option.map_eq_some_iff.mp body
  rw [form, stringAt, read]
  obtain ⟨value, left⟩ := Prod.mk.inj same
  simp only [found, Option.map_some, Reading.parts_within, Reading.parts_map, value, left, String.ofList_toList]

end Json

end TagQuery
