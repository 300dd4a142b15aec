import Mathlib.Data.List.Induction
import Mathlib.Data.String.Basic
import TagQuery.Text.Diagnostic
import TagQuery.Text.Position

namespace TagQuery

namespace Text

theorem byteLength_append (front back : List Char) : byteLength (front ++ back) = byteLength front + byteLength back := by
  induction front with
  | nil => exact (Nat.zero_add _).symm
  | cons c front ih =>
    simp only [List.cons_append, byteLength, ih]
    omega

theorem byteLength_pos {text : List Char} (nonempty : text ≠ []) : 0 < byteLength text := by
  cases text with
  | nil => exact absurd rfl nonempty
  | cons c text => exact Nat.add_pos_left c.utf8Size_pos _

theorem byteLength_le_of_isPrefix {front text : List Char} (begins : front <+: text) :
    byteLength front ≤ byteLength text := by
  obtain ⟨back, rfl⟩ := begins
  rw [byteLength_append]
  omega

theorem eq_of_isPrefix_of_byteLength {front text : List Char} (begins : front <+: text)
    (size : byteLength text ≤ byteLength front) : front = text := by
  obtain ⟨back, rfl⟩ := begins
  cases back with
  | nil => rw [List.append_nil]
  | cons c back =>
    have positive := byteLength_pos (List.cons_ne_nil c back)
    rw [byteLength_append] at size
    omega

theorem byteLength_toList (source : String) : byteLength source.toList = source.utf8ByteSize := by
  have same (text : List Char) : byteLength text = String.utf8Len text := by
    induction text with
    | nil => rfl
    | cons c text ih =>
      rw [byteLength, String.utf8Len_cons, ih]
      omega
  rw [same, ← String.utf8ByteSize_ofList, String.ofList_toList]

theorem splitAtByte?_append (front back : List Char) :
    splitAtByte? (front ++ back) (byteLength front) = some (front, back) := by
  induction front with
  | nil => cases back <;> rfl
  | cons c front ih =>
    have positive := c.utf8Size_pos
    rw [List.cons_append, byteLength]
    obtain ⟨bytes, size⟩ := Nat.exists_eq_add_of_le' (show 1 ≤ c.utf8Size + byteLength front by omega)
    have rest : bytes + 1 - c.utf8Size = byteLength front := by omega
    rw [size, splitAtByte?, if_pos (by omega), rest, ih]
    rfl

theorem splitAtByte?_eq_some_iff {text front back : List Char} {bytes : Nat} :
    splitAtByte? text bytes = some (front, back) ↔ text = front ++ back ∧ byteLength front = bytes := by
  constructor
  · intro split
    induction text generalizing front bytes with
    | nil =>
      cases bytes with
      | zero =>
        cases split
        exact ⟨rfl, rfl⟩
      | succ bytes => cases split
    | cons c text ih =>
      cases bytes with
      | zero =>
        cases split
        exact ⟨rfl, rfl⟩
      | succ bytes =>
        rw [splitAtByte?] at split
        split at split
        · rename_i fits
          obtain ⟨⟨front', back'⟩, rest, same⟩ := Option.map_eq_some_iff.mp split
          cases same
          obtain ⟨rfl, size⟩ := ih rest
          refine ⟨rfl, ?_⟩
          rw [byteLength]
          omega
        · cases split
  · rintro ⟨rfl, rfl⟩
    exact splitAtByte?_append front back

theorem slice?_append (front middle back : List Char) :
    slice? (front ++ (middle ++ back)) (byteLength front) (byteLength (front ++ middle)) = some middle := by
  have length := byteLength_append front middle
  have rest : byteLength (front ++ middle) - byteLength front = byteLength middle := by omega
  rw [slice?, if_pos (by omega), splitAtByte?_append]
  simp only [Option.bind_eq_bind, Option.bind_some, rest, splitAtByte?_append]
  rfl

theorem takeFitting_isPrefix (bytes : Nat) (text : List Char) : takeFitting bytes text <+: text := by
  induction text generalizing bytes with
  | nil => exact List.prefix_rfl
  | cons c text ih =>
    rw [takeFitting]
    split
    · exact List.cons_prefix_cons.mpr ⟨rfl, ih _⟩
    · exact List.nil_prefix

theorem byteLength_takeFitting_le (bytes : Nat) (text : List Char) : byteLength (takeFitting bytes text) ≤ bytes := by
  induction text generalizing bytes with
  | nil => exact Nat.zero_le bytes
  | cons c text ih =>
    rw [takeFitting]
    split
    · have rest := ih (bytes - c.utf8Size)
      rw [byteLength]
      omega
    · exact Nat.zero_le bytes

theorem isPrefix_takeFitting (bytes : Nat) {front text : List Char} (begins : front <+: text)
    (fits : byteLength front ≤ bytes) : front <+: takeFitting bytes text := by
  induction front generalizing bytes text with
  | nil => exact List.nil_prefix
  | cons c front ih =>
    cases text with
    | nil => simp at begins
    | cons d text =>
      obtain ⟨rfl, rest⟩ := List.cons_prefix_cons.mp begins
      rw [byteLength] at fits
      rw [takeFitting, if_pos (by omega)]
      exact List.cons_prefix_cons.mpr ⟨rfl, ih _ rest (by omega)⟩

theorem lastLine_lineFeed (text : List Char) : lastLine (text ++ ['\n']) = [] := by
  simp [lastLine]

theorem lastLine_other (text : List Char) {c : Char} (other : c ≠ '\n') : lastLine (text ++ [c]) = lastLine text ++ [c] := by
  simp [lastLine, other]

end Text

open Text

namespace Position

def after (text : List Char) : Position := ⟨byteLength text, 1 + text.count '\n', 1 + (lastLine text).length⟩

theorem advance_after (text : List Char) (c : Char) : (after text).advance c = after (text ++ [c]) := by
  unfold advance
  split
  · rename_i lineFeed
    subst lineFeed
    rw [after, after, byteLength_append, List.count_append, lastLine_lineFeed]
    rfl
  · rename_i other
    have lines : [c].count '\n' = 0 := List.count_eq_zero.mpr (by simpa using Ne.symm other)
    rw [after, after, byteLength_append, List.count_append, lastLine_other text other, lines, List.length_append]
    rfl

theorem line_add_column_le (text : List Char) : (after text).line + (after text).column ≤ byteLength text + 2 := by
  induction text using List.reverseRecOn with
  | nil => decide
  | append_singleton text c ih =>
    have first : 1 ≤ (after text).column := Nat.le_add_right 1 _
    have size : 0 < byteLength [c] := byteLength_pos (List.cons_ne_nil c [])
    rw [← advance_after, byteLength_append]
    unfold advance
    split <;> simp only <;> omega

theorem advanceOver_after (front text : List Char) : (after front).advanceOver text = after (front ++ text) := by
  induction text generalizing front with
  | nil => rw [List.append_nil]; rfl
  | cons c text ih =>
    have step : (after front).advanceOver (c :: text) = ((after front).advance c).advanceOver text := rfl
    rw [step, advance_after, ih, List.append_assoc]
    rfl

theorem advanceOver_start (text : List Char) : start.advanceOver text = after text := advanceOver_after [] text

end Position

end TagQuery
