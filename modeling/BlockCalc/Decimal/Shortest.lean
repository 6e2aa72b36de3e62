import BlockCalc.Decimal

/-!
# Shortest decimals

The decimal with the fewest digits that reads back as a given double. The exact decimal expansion
of the double is rounded to one digit, to two digits and so on; on each of these grids the two
neighbours of the exact value are tried, the nearer one first, and the first that reads back is the
answer. The exact expansion itself ends the search, so that every answer reads back
(`Magnitude.nearest_shortest`).
-/
namespace BlockCalc
namespace Magnitude

/-- The exact decimal expansion of a finite magnitude. -/
def expansion (m : Magnitude) : Decimal :=
  if unitPlaces ≤ m.scale then ⟨m.significand * Nat.pow 2 (m.scale - unitPlaces), 0⟩
  else ⟨m.significand * Nat.pow 5 (unitPlaces - m.scale), -((unitPlaces - m.scale : Nat) : Int)⟩

end Magnitude

namespace Decimal

/-- The two neighbours of a decimal on the grid that drops its last `places` digits, the nearer one
first and of two equally near ones the larger. -/
def neighbours (d : Decimal) (places : Nat) : List Decimal :=
  let step := Nat.pow 10 places
  let below : Decimal := ⟨d.coefficient / step, d.exponent + places⟩
  let above : Decimal := ⟨d.coefficient / step + 1, d.exponent + places⟩
  if 2 * (d.coefficient % step) < step then [below, above] else [above, below]

/-- Looks for a decimal that reads back as `m` on the grids that drop `places` digits of `exact`,
then one digit less, and so on. -/
def search (m : Magnitude) (exact : Decimal) : Nat → Decimal
  | 0 => exact
  | places + 1 =>
    match (exact.neighbours (places + 1)).find? (·.nearest = m) with
    | some found => found
    | none => search m exact places

end Decimal

/-- The decimal with the fewest digits that reads back as `m`, and of those the nearest to it. -/
def Magnitude.shortest (m : Magnitude) : Decimal :=
  Decimal.search m m.expansion (m.expansion.digits.length - 1)

namespace Magnitude

theorem two_pow_eq_mul {a : Nat} (b c : Nat) (sum : a = b + c) :
    Nat.pow 2 a = Nat.pow 2 b * Nat.pow 2 c := by
  subst sum
  exact Nat.pow_add ..

theorem two_mul_le_log2 {k : Nat} (pos : 0 < k) (n : Nat) : 2 * n ≤ (k * Nat.pow 5 n).log2 := by
  have power : Nat.pow 2 (2 * n) ≤ k * Nat.pow 5 n := by
    simp only [Nat.pow_eq, Nat.pow_mul]
    exact Nat.le_trans (Nat.pow_le_pow_left (by decide) n) (Nat.le_mul_of_pos_left _ pos)
  have positive : k * Nat.pow 5 n ≠ 0 :=
    Nat.ne_of_gt (Nat.lt_of_lt_of_le (Nat.two_pow_pos _) power)
  exact (Nat.le_log2 positive).2 power

/-- The exact expansion of a magnitude reads back. -/
theorem nearest_expansion {m : Magnitude} (positive : m ≠ zero) : m.expansion.nearest = m := by
  have pos := significand_pos positive
  unfold expansion
  split
  · next large =>
    refine (Decimal.nearest_whole 0 (Nat.mul_ne_zero (Nat.ne_of_gt pos)
      (Nat.ne_of_gt (Nat.two_pow_pos _))) (by decide)).trans ?_
    refine nearest_eq_self m Nat.one_pos ?_
    have power : Nat.pow 2 m.scale = Nat.pow 2 (m.scale - unitPlaces) * unitsPerOne := by
      unfold unitsPerOne
      exact two_pow_eq_mul (m.scale - unitPlaces) unitPlaces (Nat.sub_add_cancel large).symm
    rw [units, power]
    exact (congrArg (· * unitsPerOne) (Nat.mul_one _)).trans
      ((Nat.mul_assoc ..).trans (Nat.mul_one _).symm)
  · next small =>
    obtain ⟨n, places⟩ : ∃ n, unitPlaces - m.scale = n + 1 :=
      Nat.exists_eq_add_one.2 (Nat.sub_pos_of_lt (Nat.not_le.1 small))
    have bounded : unitPlaces = 1074 := rfl
    have reach := two_mul_le_log2 pos (n + 1)
    rw [places]
    refine (Decimal.nearest_fraction (Nat.mul_ne_zero (Nat.ne_of_gt pos)
      (Nat.ne_of_gt (Nat.pow_pos (by decide)))) ?_).trans ?_
    · change 3 * (n + 1) ≤ (m.significand * Nat.pow 5 (n + 1)).log2 + 1100
      omega
    refine nearest_eq_self m (Nat.pow_pos (by decide)) ?_
    have power : unitsPerOne = Nat.pow 2 m.scale * Nat.pow 2 (n + 1) := by
      unfold unitsPerOne
      exact two_pow_eq_mul m.scale (n + 1) (by omega)
    have ten : Nat.pow 10 (n + 1) = Nat.pow 5 (n + 1) * Nat.pow 2 (n + 1) := by
      simp only [Nat.pow_eq, ← Nat.mul_pow]
    rw [power, ten, units]
    ac_rfl

theorem nearest_search {m : Magnitude} {exact : Decimal} (same : exact.nearest = m)
    (places : Nat) : (Decimal.search m exact places).nearest = m := by
  induction places with
  | zero => exact same
  | succ places ih =>
    rw [Decimal.search]
    split
    · next eq => simpa using List.find?_some eq
    · exact ih

/-- The shortest decimal of a positive magnitude reads back. -/
theorem nearest_shortest {m : Magnitude} (positive : m ≠ zero) : m.shortest.nearest = m :=
  nearest_search (nearest_expansion positive) _

end Magnitude
end BlockCalc
