import Mathlib.Data.Nat.Dist
import BlockCalc.Decimal

/-!
# Rounding to the closest magnitude

A ratio is rounded to the magnitude that is closest to it, and to the even one of two that are as
close (`Magnitude.nearest_eq_iff`). The magnitude of a decimal is that of its ratio, also where it
is given without computing the power of ten (`Decimal.nearest_eq_ratio`), and so it is the closest
to the decimal (`Decimal.nearest_eq_iff`) and depends on its value alone (`Decimal.nearest_shift`).
-/
namespace BlockCalc

theorem unitsPerOne_pos : 0 < unitsPerOne := by
  have pos (places : Nat) : 0 < Nat.pow 2 places := Nat.two_pow_pos places
  unfold unitsPerOne
  exact pos unitPlaces

theorem two_pow_mul_unitsPerOne (n : Nat) : 2 ^ n * unitsPerOne = 2 ^ (n + unitPlaces) := by
  have sum (places : Nat) : 2 ^ n * Nat.pow 2 places = 2 ^ (n + places) := (Nat.pow_add ..).symm
  unfold unitsPerOne
  exact sum unitPlaces

theorem roundDiv_mul_mul {k : Nat} (pos : 0 < k) (num den : Nat) :
    roundDiv (num * k) (den * k) = roundDiv num den := by
  have less : den * k < 2 * (num % den * k) ↔ den < 2 * (num % den) := by
    rw [← Nat.mul_assoc, Nat.mul_lt_mul_right pos]
  have equal : den * k = 2 * (num % den * k) ↔ den = 2 * (num % den) := by
    rw [← Nat.mul_assoc, Nat.mul_right_cancel_iff pos]
  simp only [roundDiv, Nat.mul_div_mul_right _ _ pos, Nat.mul_mod_mul_right, less, equal]

theorem le_roundDiv (num den : Nat) : num / den ≤ roundDiv num den := by
  simp only [roundDiv]
  split
  · omega
  · omega

theorem roundDiv_le (num den : Nat) : roundDiv num den ≤ num / den + 1 := by
  simp only [roundDiv]
  split
  · omega
  · omega

/-- No multiple of the divisor is closer than the rounded one, which is even where another is as
close. -/
theorem roundDiv_closest {den : Nat} (pos : 0 < den) (num k : Nat) :
    Nat.dist num (roundDiv num den * den) ≤ Nat.dist num (k * den) ∧
      (k ≠ roundDiv num den →
        Nat.dist num (roundDiv num den * den) = Nat.dist num (k * den) →
          roundDiv num den % 2 = 0) := by
  have whole : num / den * den + num % den = num := Nat.div_add_mod' num den
  have rest : num % den < den := Nat.mod_lt num pos
  have above : (num / den + 1) * den = num / den * den + den := Nat.succ_mul ..
  -- The two multiples around the quotient, and one that is further away on either side.
  have places : k = num / den ∨ k = num / den + 1 ∨ k * den + den ≤ num / den * den ∨
      num / den * den + 2 * den ≤ k * den := by
    rcases Nat.lt_trichotomy k (num / den) with less | same | more
    · have := Nat.mul_le_mul_right den less
      rw [Nat.succ_mul] at this
      omega
    · omega
    · rcases Nat.lt_or_ge (num / den + 1) k with beyond | next
      · have := Nat.mul_le_mul_right den beyond
        rw [Nat.succ_mul, above] at this
        omega
      · omega
  simp only [roundDiv, Nat.dist]
  split
  · rw [above]
    rcases places with rfl | rfl | below | beyond
    · omega
    · omega
    · omega
    · omega
  · rcases places with rfl | rfl | below | beyond
    · omega
    · rw [above]
      omega
    · omega
    · omega

theorem roundDiv_eq_zero {num den : Nat} (small : 2 * num < den) : roundDiv num den = 0 := by
  have below : num < den := by omega
  simp only [roundDiv, Nat.div_eq_of_lt below, Nat.mod_eq_of_lt below]
  rw [if_neg (by omega)]

namespace Magnitude

theorem nearest_mul_mul {k : Nat} (pos : 0 < k) (num den : Nat) :
    nearest (num * k) (den * k) = nearest num den := by
  have units : num * k * unitsPerOne = num * unitsPerOne * k := Nat.mul_right_comm ..
  have spacing (s : Nat) : den * k * Nat.pow 2 s = den * Nat.pow 2 s * k := Nat.mul_right_comm ..
  simp only [nearest, units, spacing, Nat.mul_div_mul_right _ _ pos, roundDiv_mul_mul pos]

theorem ofRank_eq_infinity {r : Nat} (beyond : infiniteRank ≤ r) : ofRank r = infinity := by
  simp only [ofRank, infinity, Nat.min_eq_right beyond]

/-- From `2 ^ 1024` on, every whole number is rounded to infinity. -/
theorem nearest_eq_infinity {num bits : Nat} (large : 2 ^ bits ≤ num) (many : 1024 ≤ bits) :
    nearest num 1 = infinity := by
  have units : 2 ^ (bits + unitPlaces) ≤ num * unitsPerOne := by
    rw [← two_pow_mul_unitsPerOne]
    exact Nat.mul_le_mul_right _ large
  rw [nearest, Nat.div_one, Nat.one_mul]
  generalize num * unitsPerOne = u at units
  have positive : u ≠ 0 := Nat.ne_of_gt (Nat.lt_of_lt_of_le (Nat.two_pow_pos _) units)
  have reach : bits + unitPlaces ≤ u.log2 := (Nat.le_log2 positive).mpr units
  have scale : 2046 ≤ u.log2 - 52 := by
    simp only [unitPlaces] at reach
    omega
  -- The leading bit alone makes the significand at least `2 ^ 52`.
  have significand : magnitudesPerScale ≤ u / Nat.pow 2 (u.log2 - 52) := by
    refine (Nat.le_div_iff_mul_le (Nat.two_pow_pos _)).mpr ?_
    calc
      magnitudesPerScale * Nat.pow 2 (u.log2 - 52) = 2 ^ (52 + (u.log2 - 52)) :=
        (Nat.pow_add 2 52 _).symm
      _ = 2 ^ u.log2 := by congr 1; omega
      _ ≤ u := Nat.log2_self_le positive
  refine ofRank_eq_infinity ?_
  calc
    infiniteRank = 2046 * magnitudesPerScale + magnitudesPerScale := rfl
    _ ≤ (u.log2 - 52) * magnitudesPerScale + roundDiv u (Nat.pow 2 (u.log2 - 52)) :=
      Nat.add_le_add (Nat.mul_le_mul_right _ scale) (Nat.le_trans significand (le_roundDiv ..))

/-- A ratio below half the unit is rounded to zero. -/
theorem nearest_eq_zero {num den : Nat} (small : 2 * (num * unitsPerOne) < den) :
    nearest num den = zero := by
  have below : num * unitsPerOne < den := by omega
  simp only [nearest, Nat.div_eq_of_lt below, Nat.log2_zero, Nat.zero_sub, Nat.pow_eq, Nat.pow_zero,
    Nat.mul_one, roundDiv_eq_zero small]
  rfl

/-- No magnitude is closer to `num / den`, and the significand is even if another is as close. The
distances are multiplied by `den` and counted in units. Infinity stands at `2 ^ 1024`, where the
next magnitude would be. -/
def IsClosest (m : Magnitude) (num den : Nat) : Prop :=
  ∀ other : Magnitude,
    Nat.dist (num * unitsPerOne) (m.units * den) ≤
      Nat.dist (num * unitsPerOne) (other.units * den) ∧
    (other ≠ m →
      Nat.dist (num * unitsPerOne) (m.units * den) =
        Nat.dist (num * unitsPerOne) (other.units * den) →
      m.significand % 2 = 0)

theorem two_pow_le_two_pow {a b : Nat} (le : a ≤ b) : Nat.pow 2 a ≤ Nat.pow 2 b :=
  Nat.pow_le_pow_right Nat.two_pos le

theorem two_mul_mul_two_pow (k n : Nat) : 2 * k * Nat.pow 2 n = k * Nat.pow 2 (n + 1) := by
  rw [Nat.mul_comm 2, Nat.mul_assoc, Nat.pow_eq, Nat.pow_eq, Nat.pow_succ']

/-- Different magnitudes have different values. -/
theorem eq_of_units_eq {m other : Magnitude} (same : m.units = other.units) : m = other := by
  have scale : m.scale = other.scale := by rw [← log2_units, ← log2_units, same]
  have significand : m.significand = other.significand := by
    rw [units, units, scale] at same
    exact Nat.eq_of_mul_eq_mul_right (Nat.two_pow_pos _) same
  exact Magnitude.ext (by rw [rank_eq, rank_eq, scale, significand])

theorem scale_infinity : infinity.scale = 2046 := by decide

theorem significand_infinity : infinity.significand = magnitudesPerScale := by decide

theorem units_infinity : infinity.units = magnitudesPerScale * Nat.pow 2 infinity.scale := by
  rw [units, significand_infinity]

/-- At a smaller scale all magnitudes lie below those of this scale. -/
theorem units_lt_of_scale_lt {m : Magnitude} {scale : Nat} (less : m.scale < scale) :
    m.units < magnitudesPerScale * Nat.pow 2 scale :=
  calc
    m.significand * Nat.pow 2 m.scale < 2 * magnitudesPerScale * Nat.pow 2 m.scale :=
      Nat.mul_lt_mul_of_pos_right m.significand_lt (Nat.two_pow_pos _)
    _ = magnitudesPerScale * Nat.pow 2 (m.scale + 1) := two_mul_mul_two_pow ..
    _ ≤ magnitudesPerScale * Nat.pow 2 scale :=
      Nat.mul_le_mul_left _ (two_pow_le_two_pow less)

/-- At the same or a larger scale all magnitudes are multiples of the spacing. -/
theorem units_eq_mul_of_scale_le {m : Magnitude} {scale : Nat} (le : scale ≤ m.scale) :
    m.units = m.significand * Nat.pow 2 (m.scale - scale) * Nat.pow 2 scale := by
  rw [units, Nat.mul_assoc, Nat.pow_eq, Nat.pow_eq, Nat.pow_eq, ← Nat.pow_add,
    Nat.sub_add_cancel le]

theorem units_lt_units {m other : Magnitude} (less : m.rank < other.rank) :
    m.units < other.units := by
  have ranks := m.rank_eq
  have others := other.rank_eq
  have spacing := Nat.two_pow_pos other.scale
  have le : m.scale ≤ other.scale := Nat.sub_le_sub_right (Nat.div_le_div_right less.le) 1
  rcases Nat.lt_or_eq_of_le le with finer | same
  · calc
      m.units < magnitudesPerScale * Nat.pow 2 other.scale := units_lt_of_scale_lt finer
      _ ≤ other.units := Nat.mul_le_mul_right _ (le_significand (Nat.zero_lt_of_lt finer))
  · rw [units, units, same]
    rw [same] at ranks
    exact Nat.mul_lt_mul_of_pos_right (by omega) spacing

theorem units_le_infinity (m : Magnitude) : m.units ≤ infinity.units := by
  rcases Nat.lt_or_eq_of_le m.rank_le with less | same
  · exact (units_lt_units less).le
  · rw [show m = infinity from Magnitude.ext same]

/-- A rank is that of a significand at a scale, also if this is rounded up to the next power of
two. -/
theorem units_of_rank_eq {m : Magnitude} {scale q : Nat}
    (rank : m.rank = scale * magnitudesPerScale + q) (most : q ≤ 2 * magnitudesPerScale)
    (least : scale = 0 ∨ magnitudesPerScale ≤ q) :
    m.units = q * Nat.pow 2 scale ∧ (q % 2 = 0 → m.significand % 2 = 0) := by
  have parts := m.rank_eq
  rcases Nat.lt_or_ge q (2 * magnitudesPerScale) with below | full
  · have same : m.scale = scale := by
      simp only [Magnitude.scale, magnitudesPerScale] at *
      omega
    have significand : m.significand = q := by
      rw [same] at parts
      omega
    rw [units, significand, same]
    exact ⟨rfl, id⟩
  · obtain rfl : q = 2 * magnitudesPerScale := Nat.le_antisymm most full
    have next : m.scale = scale + 1 := by
      simp only [Magnitude.scale, magnitudesPerScale] at *
      omega
    have significand : m.significand = magnitudesPerScale := by
      rw [next, Nat.succ_mul] at parts
      omega
    rw [units, significand, next]
    exact ⟨(two_mul_mul_two_pow ..).symm, fun _ => rfl⟩

/-- A ratio is rounded at the scale at which its quotient has 53 bits, or at the smallest. -/
theorem scale_bounds {den : Nat} (pos : 0 < den) {u scale : Nat}
    (scaled : (u / den).log2 - 52 = scale) :
    u < 2 * magnitudesPerScale * (den * Nat.pow 2 scale) ∧
      (scale = 0 ∨ magnitudesPerScale * (den * Nat.pow 2 scale) ≤ u) := by
  have spread (bits : Nat) : 2 ^ bits * (den * Nat.pow 2 scale) = 2 ^ (scale + bits) * den := by
    rw [Nat.pow_add, Nat.mul_comm den, ← Nat.mul_assoc, Nat.mul_comm (2 ^ bits)]
    rfl
  constructor
  · have bound : u / den < 2 ^ (scale + 53) :=
      calc
        u / den < 2 ^ ((u / den).log2 + 1) := Nat.lt_log2_self
        _ ≤ 2 ^ (scale + 53) := Nat.pow_le_pow_right (by decide) (by omega)
    calc
      u < 2 ^ (scale + 53) * den := (Nat.div_lt_iff_lt_mul pos).mp bound
      _ = 2 * magnitudesPerScale * (den * Nat.pow 2 scale) := (spread 53).symm
  · rcases Nat.eq_zero_or_pos scale with smallest | positive
    · exact .inl smallest
    · have some : u / den ≠ 0 := by
        intro none
        rw [none, Nat.log2_zero] at scaled
        omega
      have leading : 2 ^ (scale + 52) ≤ u / den := by
        have exponent : scale + 52 = (u / den).log2 := by omega
        rw [exponent]
        exact Nat.log2_self_le some
      refine .inr ?_
      calc
        magnitudesPerScale * (den * Nat.pow 2 scale) = 2 ^ (scale + 52) * den := spread 52
        _ ≤ u := (Nat.le_div_iff_mul_le pos).mp leading

/-- A significand that is rounded past the last rank comes from a ratio beyond all magnitudes. -/
theorem units_mul_le_of_beyond {u den scale q : Nat} (most : q ≤ 2 * magnitudesPerScale)
    (lower : scale = 0 ∨ magnitudesPerScale * (den * Nat.pow 2 scale) ≤ u)
    (beyond : infiniteRank < scale * magnitudesPerScale + q) (m : Magnitude) :
    m.units * den ≤ u := by
  have top := scale_infinity
  have high : infinity.scale ≤ scale := by
    simp only [infiniteRank, magnitudesPerScale] at most beyond
    omega
  calc
    m.units * den ≤ infinity.units * den := Nat.mul_le_mul_right _ m.units_le_infinity
    _ = magnitudesPerScale * (den * Nat.pow 2 infinity.scale) := by
      rw [units_infinity, Nat.mul_assoc, Nat.mul_comm den]
    _ ≤ magnitudesPerScale * (den * Nat.pow 2 scale) :=
      Nat.mul_le_mul_left _ (Nat.mul_le_mul_left _ (two_pow_le_two_pow high))
    _ ≤ u := lower.resolve_left (by omega)

/-- Rounding gives the closest magnitude, and of two that are as close the even one. -/
theorem isClosest_nearest {den : Nat} (pos : 0 < den) (num : Nat) :
    (nearest num den).IsClosest num den := by
  intro other
  rw [nearest]
  generalize num * unitsPerOne = u
  generalize scaled : (u / den).log2 - 52 = scale
  obtain ⟨upper, lower⟩ := scale_bounds pos scaled
  have spacing : 0 < den * Nat.pow 2 scale := Nat.mul_pos pos (Nat.two_pow_pos _)
  have closest := roundDiv_closest spacing u
  have most : roundDiv u (den * Nat.pow 2 scale) ≤ 2 * magnitudesPerScale :=
    (roundDiv_le ..).trans ((Nat.div_lt_iff_lt_mul spacing).mpr upper)
  have least : scale = 0 ∨ magnitudesPerScale ≤ roundDiv u (den * Nat.pow 2 scale) :=
    lower.imp_right fun le => ((Nat.le_div_iff_mul_le spacing).mpr le).trans (le_roundDiv ..)
  generalize roundDiv u (den * Nat.pow 2 scale) = q at *
  rcases Nat.lt_or_ge infiniteRank (scale * magnitudesPerScale + q) with beyond | finite
  · have reached := units_mul_le_of_beyond most lower beyond infinity
    have farther : other.units * den ≤ infinity.units * den :=
      Nat.mul_le_mul_right _ other.units_le_infinity
    rw [ofRank_eq_infinity beyond.le, significand_infinity]
    refine ⟨?_, fun _ _ => rfl⟩
    simp only [Nat.dist]
    omega
  · have rank : (ofRank (scale * magnitudesPerScale + q)).rank = scale * magnitudesPerScale + q :=
      Nat.min_eq_left finite
    obtain ⟨units, even⟩ := units_of_rank_eq rank most least
    have place (k : Nat) : k * Nat.pow 2 scale * den = k * (den * Nat.pow 2 scale) := by
      rw [Nat.mul_assoc, Nat.mul_comm den]
    rw [units, place]
    rcases Nat.lt_or_ge other.scale scale with less | le
    · -- The other lies below the first magnitude of the scale, which is a multiple itself.
      have below : other.units * den < magnitudesPerScale * (den * Nat.pow 2 scale) := by
        rw [← place]
        exact Nat.mul_lt_mul_of_pos_right (units_lt_of_scale_lt less) pos
      have first := (closest magnitudesPerScale).1
      have reached := lower.resolve_left (by omega)
      simp only [Nat.dist] at first ⊢
      omega
    · rw [units_eq_mul_of_scale_le le, place]
      obtain ⟨near, tie⟩ := closest (other.significand * Nat.pow 2 (other.scale - scale))
      refine ⟨near, fun differs same => even (tie ?_ same)⟩
      rintro rfl
      exact differs (eq_of_units_eq ((units_eq_mul_of_scale_le le).trans units.symm))

theorem rank_mod_two (m : Magnitude) : m.rank % 2 = m.significand % 2 := by
  have rank := m.rank_eq
  simp only [magnitudesPerScale] at rank
  omega

/-- Of two magnitudes that are as close, one is odd, or one between them is closer. -/
theorem IsClosest.rank_le {m other : Magnitude} {num den : Nat} (pos : 0 < den)
    (closest : m.IsClosest num den) (too : other.IsClosest num den) : other.rank ≤ m.rank := by
  refine Nat.le_of_not_lt fun less => ?_
  have differs : other ≠ m := by
    rintro rfl
    exact Nat.lt_irrefl _ less
  obtain ⟨near, even⟩ := closest other
  obtain ⟨near', even'⟩ := too m
  have same := Nat.le_antisymm near near'
  have parity := m.rank_mod_two.trans (even differs same)
  have parity' := other.rank_mod_two.trans (even' differs.symm same.symm)
  have bound := other.rank_le
  have rank : (ofRank (m.rank + 1)).rank = m.rank + 1 := Nat.min_eq_left (by omega)
  obtain ⟨between, -⟩ := closest (ofRank (m.rank + 1))
  have above : m.units * den < (ofRank (m.rank + 1)).units * den :=
    Nat.mul_lt_mul_of_pos_right (units_lt_units (by omega)) pos
  have below : (ofRank (m.rank + 1)).units * den < other.units * den :=
    Nat.mul_lt_mul_of_pos_right (units_lt_units (by omega)) pos
  simp only [Nat.dist] at same between
  omega

/-- The magnitude to which a ratio is rounded is the closest one, and the even one of two. -/
theorem nearest_eq_iff {den : Nat} (pos : 0 < den) {num : Nat} {m : Magnitude} :
    nearest num den = m ↔ m.IsClosest num den := by
  have rounded := isClosest_nearest pos num
  constructor
  · rintro rfl
    exact rounded
  · intro closest
    have rank := Nat.le_antisymm (closest.rank_le pos rounded) (rounded.rank_le pos closest)
    exact Magnitude.ext rank

end Magnitude

namespace Decimal

/-- The magnitude closest to a decimal is that of its ratio. -/
theorem nearest_eq_ratio (d : Decimal) :
    d.nearest = .nearest (d.coefficient * 10 ^ d.exponent.toNat) (10 ^ (-d.exponent).toNat) := by
  obtain ⟨c, e⟩ := d
  by_cases none : c = 0
  · subst none
    have pos : 0 < 10 ^ (-e).toNat := Nat.pow_pos (by decide)
    rw [nearest, if_pos rfl, Nat.zero_mul]
    exact (Magnitude.nearest_eq_zero (by rwa [Nat.zero_mul])).symm
  · rw [nearest, if_neg none]
    cases e with
    | ofNat power =>
      have whole : (-Int.ofNat power).toNat = 0 := by simp
      have same : (Int.ofNat power).toNat = power := rfl
      simp only [whole, same, Nat.pow_zero]
      split
      · next beyond =>
        have large : 2 ^ 1024 ≤ c * 10 ^ power :=
          calc
            2 ^ 1024 ≤ 10 ^ overflowPower := by decide +kernel
            _ ≤ 10 ^ power := Nat.pow_le_pow_right (by decide) beyond
            _ ≤ c * 10 ^ power := Nat.le_mul_of_pos_left _ (Nat.pos_of_ne_zero none)
        exact (Magnitude.nearest_eq_infinity large (Nat.le_refl _)).symm
      · rfl
    | negSucc n =>
      have places : (-Int.negSucc n).toNat = n + 1 := rfl
      have same : (Int.negSucc n).toNat = 0 := rfl
      simp only [places, same, Nat.pow_zero, Nat.mul_one]
      split
      · next below =>
        refine (Magnitude.nearest_eq_zero ?_).symm
        have bound : c < 2 ^ (c.log2 + 1) := Nat.lt_log2_self
        calc
          2 * (c * unitsPerOne) < 2 * (2 ^ (c.log2 + 1) * unitsPerOne) := by
            refine Nat.mul_lt_mul_of_pos_left ?_ (by decide)
            exact Nat.mul_lt_mul_of_pos_right bound unitsPerOne_pos
          _ = 2 ^ (c.log2 + 1 + unitPlaces + 1) := by
            rw [two_pow_mul_unitsPerOne, Nat.mul_comm, ← Nat.pow_succ]
          _ ≤ 2 ^ (3 * (n + 1)) := by
            refine Nat.pow_le_pow_right (by decide) ?_
            simp only [unitPlaces, underflowPlaces] at *
            omega
          _ = 8 ^ (n + 1) := Nat.pow_mul 2 3 (n + 1)
          _ ≤ 10 ^ (n + 1) := Nat.pow_le_pow_left (by decide) _
      · rfl

/-- The magnitude to which a decimal is rounded is the closest one, and the even one of two. -/
theorem nearest_eq_iff {d : Decimal} {m : Magnitude} :
    d.nearest = m ↔
      m.IsClosest (d.coefficient * 10 ^ d.exponent.toNat) (10 ^ (-d.exponent).toNat) := by
  rw [nearest_eq_ratio]
  exact Magnitude.nearest_eq_iff (Nat.pow_pos (by decide))

/-- Zeros at the end of a coefficient count as powers of ten. -/
theorem nearest_shift (c k : Nat) (e : Int) : nearest ⟨c * 10 ^ k, e⟩ = nearest ⟨c, e + k⟩ := by
  rw [nearest_eq_ratio, nearest_eq_ratio]
  have pos (n : Nat) : 0 < 10 ^ n := Nat.pow_pos (by decide)
  -- Each ratio is extended by the other's denominator.
  rw [← Magnitude.nearest_mul_mul (pos (-(e + k)).toNat),
    ← Magnitude.nearest_mul_mul (pos (-e).toNat) (c * 10 ^ (e + k).toNat)]
  congr 1
  · simp only [Nat.mul_assoc, ← Nat.pow_add]
    congr 2
    omega
  · exact Nat.mul_comm ..

end Decimal
end BlockCalc
