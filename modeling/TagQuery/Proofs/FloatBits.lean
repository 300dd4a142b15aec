import Mathlib
import TagQuery.Number.Nearest

namespace TagQuery.Number

open Float.Model (Format)
open Float.Model.UnpackedFloat

theorem unpackExponent_top_iff (bits : BitVec 64) :
    @unpackExponent Format.binary64 bits = -1#_ ↔ bits.toNat / 2 ^ 52 % 2 ^ 11 = 2047 := by
  have value : (@unpackExponent Format.binary64 bits).toNat = bits.toNat / 2 ^ 52 % 2 ^ 11 := by
    simp [unpackExponent, Nat.shiftRight_eq_div_pow]
  have top : (-1#11 : BitVec 11).toNat = 2047 := by decide
  rw [← value]
  constructor
  · intro same
    rw [same]
    exact top
  · intro same
    exact BitVec.eq_of_toNat_eq (same.trans top.symm)

theorem unpackMantissa_zero_iff (bits : BitVec 64) :
    @unpackMantissa Format.binary64 bits = 0#_ ↔ bits.toNat % 2 ^ 52 = 0 := by
  have value : (@unpackMantissa Format.binary64 bits).toNat = bits.toNat % 2 ^ 52 := by
    simp [unpackMantissa]
  rw [← value]
  constructor
  · intro same
    rw [same]
    rfl
  · intro same
    exact BitVec.eq_of_toNat_eq same

theorem toBits_ofBits (bits : UInt64) (number : bits.toNat % signBit ≤ infinityBits) :
    (Float.ofBits bits).toBits = bits := by
  apply UInt64.toBitVec_inj.mp
  show pack Format.binary64 (unpack Format.binary64 bits.toBitVec) = bits.toBitVec
  rw [@pack_unpack Format.binary64 bits.toBitVec (by decide), if_neg]
  intro nan
  obtain ⟨exponent, mantissa⟩ := of_decide_eq_true nan
  have top := (unpackExponent_top_iff bits.toBitVec).mp exponent
  have low := mt (unpackMantissa_zero_iff bits.toBitVec).mpr mantissa
  have magnitude : bits.toBitVec.toNat % 2 ^ 63 ≤ 2047 * 2 ^ 52 := number
  omega

theorem signed_mod_signBit (sign : Bool) {bits : Nat} (number : bits ≤ infinityBits) :
    (if sign then signBit + bits else bits) % signBit = bits := by
  have below : infinityBits < signBit := by decide
  split
  · rw [Nat.add_mod_left, Nat.mod_eq_of_lt (by omega)]
  · exact Nat.mod_eq_of_lt (by omega)

theorem magnitude_ofMagnitude (sign : Bool) {bits : Nat} (number : bits ≤ infinityBits) :
    magnitude (ofMagnitude sign bits) = bits := by
  have inRange : (if sign then signBit + bits else bits) < 2 ^ 64 := by
    have top : signBit + infinityBits < 2 ^ 64 := by decide
    split <;> omega
  have low := signed_mod_signBit sign number
  have toNat := UInt64.toNat_ofNat_of_lt' inRange
  rw [magnitude, ofMagnitude, toBits_ofBits _ (by rw [toNat, low]; exact number), toNat, low]

theorem ofMagnitude_magnitude (x : Float) : ofMagnitude (negative x) (magnitude x) = x := by
  have whole : (if negative x then signBit + magnitude x else magnitude x) = x.toBits.toNat := by
    have bound := x.toBits.toNat_lt
    have range : 2 ^ 64 = 2 * signBit := by decide
    simp only [negative, magnitude, decide_eq_true_eq]
    split
    · rename_i sign
      rw [Nat.mod_eq_sub_mod sign, Nat.mod_eq_of_lt (by omega)]
      omega
    · rename_i sign
      exact Nat.mod_eq_of_lt (Nat.lt_of_not_le sign)
  rw [ofMagnitude, whole, UInt64.ofNat_toNat, Float.ofBits_toBits]

theorem isInf_iff (x : Float) : x.isInf = true ↔ magnitude x = infinityBits := by
  have exponentTop := unpackExponent_top_iff x.toBits.toBitVec
  have mantissaZero := unpackMantissa_zero_iff x.toBits.toBitVec
  have whole : magnitude x = x.toBits.toBitVec.toNat % 2 ^ 63 := rfl
  have parts : infinityBits = 2047 * 2 ^ 52 := rfl
  show (unpack Format.binary64 x.toBits.toBitVec).isInf = true ↔ magnitude x = infinityBits
  simp only [unpack]
  by_cases infinite : @unpackExponent Format.binary64 x.toBits.toBitVec = -1#_
  · rw [if_pos infinite]
    have top := exponentTop.mp infinite
    by_cases zero : @unpackMantissa Format.binary64 x.toBits.toBitVec = 0#_
    · rw [if_pos zero]
      have low := mantissaZero.mp zero
      exact iff_of_true rfl (by omega)
    · rw [if_neg zero]
      have low := mt mantissaZero.mpr zero
      exact iff_of_false Bool.false_ne_true (by omega)
  · have below := mt exponentTop.mpr infinite
    rw [if_neg infinite]
    refine iff_of_false ?_ (by omega)
    split
    · split <;> exact Bool.false_ne_true
    · exact Bool.false_ne_true

end TagQuery.Number
