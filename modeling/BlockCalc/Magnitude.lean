/-!
# Magnitudes

The doubles without their sign, infinity included, ordered by rank. A magnitude of rank `r` is the
bit pattern `r` of a non-negative double, so that neighbouring magnitudes have neighbouring ranks,
and a finite one has the exact value `significand * 2 ^ scale` in units of the smallest positive
double.

`Magnitude.nearest` rounds an exact ratio to the closest magnitude, which `Magnitude.nearest_eq_iff`
shows in the module on rounding. Reading decimal text and finding the shortest text both rest on it.
-/
namespace BlockCalc

/-- The binary places of the unit: the smallest positive double is `2 ^ (-1074)`. -/
def unitPlaces : Nat := 1074

/-- The number of units in one. -/
def unitsPerOne : Nat := Nat.pow 2 unitPlaces

/-- How many magnitudes share a scale: `2 ^ 52`, one for each fraction of 52 bits. -/
def magnitudesPerScale : Nat := 0x10000000000000

/-- The rank of infinity, right after the largest finite magnitude. -/
def infiniteRank : Nat := 2047 * magnitudesPerScale

/-- The weight of the sign bit in a bit pattern: `2 ^ 63`. -/
def signWeight : Nat := 0x8000000000000000

/-- A non-negative double, infinity included and NaN excluded, given by its rank. -/
@[ext]
structure Magnitude where
  rank : Nat
  rank_le : rank ≤ infiniteRank
deriving DecidableEq

namespace Magnitude

/-- The magnitude of a rank; every rank past the last is infinite. -/
def ofRank (r : Nat) : Magnitude := ⟨min r infiniteRank, Nat.min_le_right ..⟩

def zero : Magnitude := ⟨0, Nat.zero_le _⟩

def infinity : Magnitude := ⟨infiniteRank, Nat.le_refl _⟩

def isInfinite (m : Magnitude) : Bool := m.rank == infiniteRank

/-- How often the unit is doubled to give the spacing of the doubles at this magnitude. -/
def scale (m : Magnitude) : Nat := m.rank / magnitudesPerScale - 1

/-- The value as a multiple of the spacing. -/
def significand (m : Magnitude) : Nat := m.rank - m.scale * magnitudesPerScale

/-- The exact value of a finite magnitude, in units. -/
def units (m : Magnitude) : Nat := m.significand * Nat.pow 2 m.scale

end Magnitude

/-- The quotient rounded to the nearest integer, a half to the even one. -/
def roundDiv (num den : Nat) : Nat :=
  let quotient := num / den
  let excess := 2 * (num % den)
  if den < excess ∨ (den = excess ∧ quotient % 2 = 1) then quotient + 1 else quotient

/-- The magnitude closest to `num / den`, a half to the even significand. A significand that is
rounded up to the next power of two has the rank of the next scale's first magnitude. -/
def Magnitude.nearest (num den : Nat) : Magnitude :=
  let units := num * unitsPerOne
  let scale := (units / den).log2 - 52
  ofRank (scale * magnitudesPerScale + roundDiv units (den * Nat.pow 2 scale))

theorem roundDiv_mul_left (k : Nat) {den : Nat} (pos : 0 < den) : roundDiv (k * den) den = k := by
  simp only [roundDiv, Nat.mul_div_cancel _ pos, Nat.mul_mod_left]
  rw [if_neg (by omega)]

namespace Magnitude

theorem rank_eq (m : Magnitude) : m.rank = m.scale * magnitudesPerScale + m.significand := by
  simp only [significand, scale, magnitudesPerScale]
  omega

theorem significand_lt (m : Magnitude) : m.significand < 2 * magnitudesPerScale := by
  simp only [significand, scale, magnitudesPerScale]
  omega

theorem le_significand {m : Magnitude} (scaled : 0 < m.scale) :
    magnitudesPerScale ≤ m.significand := by
  simp only [significand, scale, magnitudesPerScale] at *
  omega

theorem significand_pos {m : Magnitude} (positive : m ≠ zero) : 0 < m.significand := by
  rcases Nat.eq_zero_or_pos m.significand with none | some
  · have unscaled : m.scale = 0 := by
      rcases Nat.eq_zero_or_pos m.scale with flat | scaled
      · exact flat
      · have := le_significand scaled
        simp only [magnitudesPerScale] at this
        omega
    have rank := m.rank_eq
    rw [none, unscaled, Nat.zero_mul] at rank
    cases m with
    | mk r le => cases rank; exact absurd rfl positive
  · exact some

/-- The scale of a magnitude is found again from its value. -/
theorem log2_units (m : Magnitude) : m.units.log2 - 52 = m.scale := by
  have upper := m.significand_lt
  rcases Nat.eq_zero_or_pos m.scale with flat | scaled
  · by_cases zero : m.significand = 0
    · simp [units, zero, flat]
    · have : m.significand.log2 < 53 := (Nat.log2_lt zero).2 upper
      simp only [units, flat, Nat.pow_eq, Nat.pow_zero, Nat.mul_one]
      omega
  · have lower := le_significand scaled
    have spacing := Nat.two_pow_pos m.scale
    have positive : m.units ≠ 0 :=
      Nat.mul_ne_zero (by simp only [magnitudesPerScale] at lower; omega) (Nat.ne_of_gt spacing)
    have : m.units.log2 = 52 + m.scale := by
      refine (Nat.log2_eq_iff positive).2 ⟨?_, ?_⟩
      · rw [Nat.pow_add]
        exact Nat.mul_le_mul_right _ lower
      · rw [Nat.add_right_comm, Nat.pow_add]
        exact Nat.mul_lt_mul_of_pos_right upper spacing
    omega

/-- A ratio that is exactly a magnitude is rounded to it. -/
theorem nearest_eq_self (m : Magnitude) {num den : Nat} (pos : 0 < den)
    (exact : num * unitsPerOne = m.units * den) : nearest num den = m := by
  have quotient : m.units * den = m.significand * (den * Nat.pow 2 m.scale) := by
    simp only [units, Nat.mul_assoc, Nat.mul_comm den]
  have spacing : 0 < den * Nat.pow 2 m.scale := Nat.mul_pos pos (Nat.two_pow_pos _)
  simp only [nearest, exact, Nat.mul_div_cancel _ pos, log2_units]
  rw [quotient, roundDiv_mul_left _ spacing, ← rank_eq]
  cases m with
  | mk rank le => simp [ofRank, Nat.min_eq_left le]

end Magnitude

/-- The double that is not a number. -/
def notANumber : Float := Float.ofBits 0x7FF8000000000000

/-- The double of a sign and a magnitude. -/
def Magnitude.toFloat (negative : Bool) (m : Magnitude) : Float :=
  Float.ofBits (UInt64.ofNat (if negative then signWeight + m.rank else m.rank))

/-- Whether the sign of a double is a minus; a NaN counts as positive. -/
def isNegative (x : Float) : Bool := !x.isNaN && decide (signWeight ≤ x.toBits.toNat)

/-- A double without its sign. -/
def Magnitude.ofFloat (x : Float) : Magnitude := ofRank (x.toBits.toNat % signWeight)

end BlockCalc
