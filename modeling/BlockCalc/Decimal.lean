import BlockCalc.Magnitude

/-!
# Decimals

Finite decimal fractions and the double closest to each. Coefficients and exponents are unbounded;
`Decimal.nearest` answers for an exponent beyond the reach of the doubles without computing the
power of ten.
-/
namespace BlockCalc

/-- The number `coefficient * 10 ^ exponent`. -/
structure Decimal where
  coefficient : Nat
  exponent : Int
deriving DecidableEq

namespace Decimal

/-- From this power of ten on, every positive whole multiple lies beyond the finite doubles. -/
def overflowPower : Nat := 309

/-- A fraction whose denominator has this many binary places more than its numerator lies below
half the smallest positive double. -/
def underflowPlaces : Nat := 1100

/-- The magnitude closest to a decimal, a half to the even significand. -/
def nearest (d : Decimal) : Magnitude :=
  if d.coefficient = 0 then .zero
  else
    match d.exponent with
    | .ofNat power =>
      if overflowPower ≤ power then .infinity else .nearest (d.coefficient * Nat.pow 10 power) 1
    | .negSucc n =>
      let places := n + 1
      if d.coefficient.log2 + underflowPlaces < 3 * places then .zero
      else .nearest d.coefficient (Nat.pow 10 places)

theorem nearest_whole {c : Nat} (power : Nat) (positive : c ≠ 0) (within : power < overflowPower) :
    nearest ⟨c, .ofNat power⟩ = .nearest (c * Nat.pow 10 power) 1 := by
  simp only [nearest, if_neg positive, if_neg (Nat.not_le.2 within)]

theorem nearest_fraction {c n : Nat} (positive : c ≠ 0)
    (within : 3 * (n + 1) ≤ c.log2 + underflowPlaces) :
    nearest ⟨c, .negSucc n⟩ = .nearest c (Nat.pow 10 (n + 1)) := by
  simp only [nearest, if_neg positive, if_neg (Nat.not_lt.2 within)]

/-- The decimal digits of the coefficient, from the first on. -/
def digits (d : Decimal) : List Char := Nat.toDigits 10 d.coefficient

end Decimal
end BlockCalc
