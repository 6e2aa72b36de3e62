import Mathlib
import BlockCalc.Magnitude

/-!
# Doubles and their magnitudes

A double other than NaN is made up of its sign and its magnitude (`Magnitude.toFloat_ofFloat`), and
there is only one NaN (`eq_notANumber`). The laws of the bits of doubles come only with Mathlib as a
whole, which no other module imports.
-/
namespace BlockCalc

section
open Float.Model UnpackedFloat

/-- There is only one double that is not a number. -/
theorem eq_notANumber {x : Float} (nan : x.isNaN = true) : x = notANumber := by
  have self : notANumber.isNaN = true := by decide +kernel
  rw [Float.isNaN_eq_decide_eq_nan, decide_eq_true_eq] at nan self
  exact nan.trans self.symm

/-- The bits of a double other than NaN, without the sign, are a rank. -/
theorem bits_le_infiniteRank {x : Float} (number : x.isNaN = false) :
    x.toBits.toNat % signWeight ≤ infiniteRank := by
  have valid := x.toModel.valid
  have other : x.toBits.toBitVec ≠ packedNaN .binary64 := by
    intro same
    have nan : x.isNaN = true := (isNaN_unpack_iff_of_valid valid).mpr same
    rw [nan] at number
    cases number
  rw [← Nat.not_lt]
  intro beyond
  simp only [signWeight, infiniteRank, magnitudesPerScale] at beyond
  -- Beyond infinity all bits of the exponent are set, and some of the fraction.
  refine other (valid.eq_packedNaN ?_ ?_)
  · rw [unpackExponent_def]
    refine BitVec.eq_of_toNat_eq ?_
    rw [BitVec.extractLsb'_toNat]
    change (x.toBits.toNat >>> 52) % 2048 = 2047
    rw [Nat.shiftRight_eq_div_pow]
    omega
  · rw [unpackMantissa_def, Ne, ← BitVec.toNat_inj, BitVec.extractLsb'_toNat]
    change ¬ (x.toBits.toNat >>> 0) % 2 ^ 52 = 0
    rw [Nat.shiftRight_zero]
    omega

end

/-- A double is made up of its sign and its magnitude. -/
theorem Magnitude.toFloat_ofFloat {x : Float} (number : x.isNaN = false) :
    Magnitude.toFloat (isNegative x) (Magnitude.ofFloat x) = x := by
  have bits : (if isNegative x = true then signWeight + (Magnitude.ofFloat x).rank
      else (Magnitude.ofFloat x).rank) = x.toBits.toNat := by
    have below := x.toBits.toNat_lt
    simp only [isNegative, number, Bool.not_false, Bool.true_and, decide_eq_true_eq, ofFloat,
      ofRank, Nat.min_eq_left (bits_le_infiniteRank number)]
    split
    · simp only [signWeight] at *
      omega
    · next small => exact Nat.mod_eq_of_lt (Nat.not_le.mp small)
  rw [toFloat, bits, UInt64.ofNat_toNat, Float.ofBits_toBits]

end BlockCalc
