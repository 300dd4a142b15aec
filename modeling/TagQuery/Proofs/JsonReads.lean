import TagQuery.Proofs.JsonNumbers

namespace TagQuery

namespace Json

open Text

theorem found_map {α β : Type} {text : List Char} (f : α → β) (reading : Option (Reading α text)) :
    found (reading.map (·.map f)) = (found reading).map (Prod.map f id) := by
  cases reading <;> rfl

theorem found_within {α : Type} {text longer : List Char} (reading : Option (Reading α text))
    (le : text.length ≤ longer.length) : found (reading.map (·.within le)) = found reading := by
  cases reading <;> rfl

theorem skip_blanks {blanks : List Char} (all : blanks.all isBlank = true) (text : List Char) :
    skip (blanks ++ text) = skip text := List.dropWhile_append_of_pos (List.all_eq_true.mp all)

theorem skip_of_startsWith {text : List Char} (other : startsWith isBlank text = false) : skip text = text := by
  cases text with
  | nil => rfl
  | cons c text => exact List.dropWhile_cons_of_neg (by simpa [startsWith] using other)

section Items

variable {α : Type} (item : (text : List Char) → Option (Reading α text)) (closing : Char)

theorem found_items (text : List Char) :
    found (items item closing text) = (found (item text)).bind fun first =>
      match skip first.2 with
      | [] => none
      | c :: rest =>
        if c = closing then some ([first.1], rest)
        else if c = ',' then (found (items item closing rest)).map (Prod.map (first.1 :: ·) id)
        else none := by
  rw [items]
  cases read : item text with
  | none => rfl
  | some first =>
    simp only [Option.bind_eq_bind, Option.bind_some, found, Option.map_some, Reading.parts]
    split
    · rename_i same
      simp only [same]
      rfl
    · rename_i c rest same
      simp only [same]
      split
      · rfl
      · split
        · cases items item closing rest <;> rfl
        · rfl

theorem found_sequence (text : List Char) :
    found (sequence item closing text) =
      match skip text with
      | [] => none
      | c :: rest => if c = closing then some ([], rest) else found (items item closing text) := by
  rw [sequence]
  split
  · rename_i same
    rw [same]
    rfl
  · rename_i c rest same
    simp only [same]
    split <;> rfl

end Items

theorem found_fieldAt {α : Type} (value : (text : List Char) → Option (Reading α text)) (text : List Char) :
    found (fieldAt value text) = (found (stringAt (skip text))).bind fun name =>
      match skip name.2 with
      | ':' :: rest => (found (value rest)).map (Prod.map (name.1, ·) id)
      | _ => none := by
  rw [fieldAt]
  cases stringAt (skip text) with
  | none => rfl
  | some name =>
    simp only [Option.bind_eq_bind, Option.bind_some, found, Option.map_some, Reading.parts]
    split
    · rename_i rest same
      simp only [same]
      cases value rest <;> rfl
    · rename_i other
      split
      · rename_i rest same
        exact absurd same (other rest)
      · rfl

section Values

variable (depth : Nat) (rest : List Char)

theorem found_valueAt_string :
    found (valueAt depth ('"' :: rest)) = (found (stringAt ('"' :: rest))).map (Prod.map .string id) := by
  unfold valueAt
  exact (found_within _ _).trans (found_map _ _)

theorem found_valueAt_closed_array : found (valueAt 0 ('[' :: rest)) = none := by
  unfold valueAt
  exact found_within _ _

theorem found_valueAt_array :
    found (valueAt (depth + 1) ('[' :: rest)) =
      (found (sequence (valueAt depth) ']' rest)).map (Prod.map .array id) := by
  conv_lhs => unfold valueAt
  refine (found_within _ _).trans ?_
  show found (Option.map _ (sequence (valueAt depth) ']' rest)) = _
  cases sequence (valueAt depth) ']' rest <;> rfl

theorem found_valueAt_closed_object : found (valueAt 0 ('\x7b' :: rest)) = none := by
  unfold valueAt
  exact found_within _ _

theorem found_valueAt_object :
    found (valueAt (depth + 1) ('\x7b' :: rest)) =
      (found (sequence (fieldAt (valueAt depth)) '\x7d' rest)).map (Prod.map .object id) := by
  conv_lhs => unfold valueAt
  refine (found_within _ _).trans ?_
  show found (Option.map _ (sequence (fieldAt (valueAt depth)) '\x7d' rest)) = _
  cases sequence (fieldAt (valueAt depth)) '\x7d' rest <;> rfl

theorem found_wordAt {word : String} (nonempty : 0 < word.toList.length) (value : Json) :
    found (wordAt word value (word.toList ++ rest)) = some (value, rest) := by
  have begins : word.toList.isPrefixOf (word.toList ++ rest) = true := by simp
  have left : (word.toList ++ rest).drop word.toList.length = rest := List.drop_left
  have shorter : rest.length < (word.toList ++ rest).length := by
    rw [List.length_append]
    omega
  simp only [wordAt, begins, left, if_true, dif_pos shorter]
  rfl

theorem found_valueAt_null : found (valueAt depth ("null".toList ++ rest)) = some (.null, rest) := by
  unfold valueAt
  exact (found_within _ _).trans (found_wordAt rest (by decide) .null)

theorem found_valueAt_true : found (valueAt depth ("true".toList ++ rest)) = some (.bool true, rest) := by
  unfold valueAt
  exact (found_within _ _).trans (found_wordAt rest (by decide) (.bool true))

theorem found_valueAt_false : found (valueAt depth ("false".toList ++ rest)) = some (.bool false, rest) := by
  unfold valueAt
  exact (found_within _ _).trans (found_wordAt rest (by decide) (.bool false))

theorem found_valueAt_number {text : List Char} (form : IsNumeral text)
    (stops : startsWith continuesNumber rest = false) :
    found (valueAt depth (text ++ rest)) = (numberOf? text).map (·, rest) := by
  rw [← found_numberAt form stops]
  obtain ⟨c, more, rfl, other⟩ := form.exists_cons
  have first : skip (c :: more ++ rest) = c :: (more ++ rest) := by
    refine skip_of_startsWith ?_
    simp [startsWith, isBlank, other ' ' rfl, other '\t' rfl, other '\n' rfl, other '\r' rfl]
  have dispatch : found (valueAt depth (c :: more ++ rest)) = found (numberAt (c :: (more ++ rest))) := by
    unfold valueAt
    rw [found_within, first]
    simp [other '"' rfl, other '[' rfl, other '\x7b' rfl, other 'n' rfl, other 't' rfl, other 'f' rfl]
  exact dispatch

theorem found_valueAt_skip (blanks : List Char) (text : List Char) (all : blanks.all isBlank = true) :
    found (valueAt depth (blanks ++ text)) = found (valueAt depth text) := by
  unfold valueAt
  rw [found_within, found_within, skip_blanks all]

end Values

end Json

end TagQuery
