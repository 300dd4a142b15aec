import Mathlib.Data.String.Basic
import Mathlib.Tactic.SplitIfs

namespace TagQuery.Text

def bytes (text : String) : List UInt8 := text.toByteArray.data.toList

theorem bytes_ofList (text : List Char) : bytes (.ofList text) = text.flatMap String.utf8EncodeChar := by
  rw [bytes, String.toByteArray_ofList, List.utf8Encode, List.data_toByteArray]

/-- A character of a lower code has bytes that come earlier, whatever follows. -/
theorem encode_append_lt {c d : Char} (less : c < d) (front back : List UInt8) :
    String.utf8EncodeChar c ++ front < String.utf8EncodeChar d ++ back := by
  have below : c.val.toNat < d.val.toNat := less
  have bound : d.val.toNat < 0x110000 := by
    rcases d.valid with early | late <;> omega
  have byte (n : Nat) (small : n < 256) : (UInt8.ofNat n).toNat = n := by
    rw [UInt8.toNat_ofNat']
    exact Nat.mod_eq_of_lt small
  -- the bytes hold the digits to base 64
  have digits (n : Nat) : n / 64 / 64 = n / 4096 ∧ n / 4096 / 64 = n / 262144 :=
    ⟨Nat.div_div_eq_div_mul n 64 64, Nat.div_div_eq_div_mul n 4096 64⟩
  have lower := digits c.val.toNat
  have upper := digits d.val.toNat
  unfold String.utf8EncodeChar
  generalize c.val.toNat = v at *
  generalize d.val.toNat = w at *
  dsimp only
  split_ifs <;>
    simp (disch := omega) only [List.cons_append, List.nil_append, List.cons_lt_cons_iff, UInt8.lt_iff_toNat_lt,
      ← UInt8.toNat_inj, byte, Nat.mod_eq_of_lt] <;> omega

theorem flatMap_encode_lt {front back : List Char} (less : front < back) :
    front.flatMap String.utf8EncodeChar < back.flatMap String.utf8EncodeChar := by
  induction front generalizing back with
  | nil =>
    cases back with
    | nil => exact absurd less (List.lt_irrefl _)
    | cons d back =>
      cases encoded : String.utf8EncodeChar d with
      | nil => exact absurd encoded String.utf8EncodeChar_ne_nil
      | cons byte rest =>
        rw [List.flatMap_cons, encoded]
        exact List.nil_lt_cons _ _
  | cons c front ih =>
    cases back with
    | nil => exact absurd less (List.not_lt_nil _)
    | cons d back =>
      rw [List.flatMap_cons, List.flatMap_cons]
      rcases List.cons_lt_cons_iff.mp less with before | ⟨rfl, rest⟩
      · exact encode_append_lt before _ _
      · exact List.append_left_lt (ih rest)

theorem bytes_lt_iff {first second : String} : bytes first < bytes second ↔ first < second := by
  have forward {first second : String} (less : first < second) : bytes first < bytes second := by
    have encoded := flatMap_encode_lt (String.lt_iff_toList_lt.mp less)
    rwa [← bytes_ofList, ← bytes_ofList, String.ofList_toList, String.ofList_toList] at encoded
  refine ⟨fun less => ?_, forward⟩
  rcases lt_trichotomy first second with before | rfl | after
  · exact before
  · exact absurd less (List.lt_irrefl _)
  · exact absurd (List.lt_trans less (forward after)) (List.lt_irrefl _)

theorem compare_lt_iff {first second : String} : compare first second = .lt ↔ first < second :=
  compareOfLessAndEq_eq_lt

end TagQuery.Text
