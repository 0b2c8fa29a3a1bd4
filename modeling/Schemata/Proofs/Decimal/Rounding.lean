import Mathlib.Algebra.Ring.Nat
import Mathlib.Data.Nat.Log
import Schemata.Decimal.Double

set_option autoImplicit false

namespace Schemata.Double

variable {first second numerator denominator value : Nat}

theorem floor_le_roundEven : numerator / denominator ≤ roundEven numerator denominator := by
  unfold roundEven
  simp only
  split
  · exact Nat.le_refl _
  split
  · exact Nat.le_add_right _ _
  · exact Nat.le_add_right _ _

theorem roundEven_le : roundEven numerator denominator ≤ numerator / denominator + 1 := by
  unfold roundEven
  simp only
  split
  · exact Nat.le_add_right _ _
  split
  · exact Nat.le_refl _
  · exact Nat.add_le_add_left (Nat.le_of_lt_succ (Nat.mod_lt _ (by decide))) _

theorem roundEven_mono (denominator : Nat) (le : first ≤ second) :
    roundEven first denominator ≤ roundEven second denominator := by
  have floors : first / denominator ≤ second / denominator := Nat.div_le_div_right le
  rcases Nat.lt_or_eq_of_le floors with below | same
  · exact Nat.le_trans roundEven_le (Nat.le_trans below floor_le_roundEven)
  · -- Fractions between the same whole numbers are rounded by what is left of them.
    have firstWhole := Nat.div_add_mod first denominator
    have secondWhole := Nat.div_add_mod second denominator
    have rests : first % denominator ≤ second % denominator := by
      rw [same] at firstWhole
      omega
    unfold roundEven
    simp only [same]
    repeat' split
    all_goals omega

theorem roundEven_mul (significand : Nat) (positive : 0 < denominator) :
    roundEven (significand * denominator) denominator = significand := by
  unfold roundEven
  simp [Nat.mul_mod_left, Nat.mul_div_cancel significand positive, positive]

theorem scaled_two_sub (up down : Nat) :
    scaled 2 ((up : Int) - down) = (2 ^ (up - down), 2 ^ (down - up)) := by
  unfold scaled
  split
  next below =>
    have magnitude : ((up : Int) - down).natAbs = down - up := by omega
    have nothing : up - down = 0 := by omega
    rw [magnitude, nothing]
    rfl
  next =>
    have magnitude : ((up : Int) - down).natAbs = up - down := by omega
    have nothing : down - up = 0 := by omega
    rw [magnitude, nothing]
    rfl

theorem lastPlace_natural (positive : 0 < value) :
    lastPlace value 1 = (value.log2 : Int) - 52 := by
  have reached : 2 ^ value.log2 ≤ value := Nat.log2_self_le (Nat.ne_of_gt positive)
  have guess := scaled_two_sub value.log2 0
  rw [Int.natCast_zero, Nat.sub_zero, Nat.zero_sub, Nat.pow_zero] at guess
  unfold lastPlace
  have single : Nat.log2 1 = 0 := by decide
  simp only [single, Int.natCast_zero, guess, Nat.mul_one, Nat.one_mul,
    if_neg (Nat.not_lt.2 reached)]
  omega

/-- The significand of a positive natural number, as it is before it carries. -/
def naturalSignificand (value : Nat) : Nat :=
  roundEven (value * 2 ^ (52 - value.log2)) (2 ^ (value.log2 - 52))

theorem naturalSignificand_bounds (positive : 0 < value) :
    2 ^ 52 ≤ naturalSignificand value ∧ naturalSignificand value ≤ 2 ^ 53 := by
  have unit : 0 < 2 ^ (value.log2 - 52) := Nat.two_pow_pos _
  have below := Nat.log2_self_le (Nat.ne_of_gt positive)
  have above : value ≤ 2 ^ (value.log2 + 1) := Nat.le_of_lt Nat.lt_log2_self
  -- Either the number is multiplied or the fraction has a denominator, but not both.
  have shifted (place : Nat) :
      2 ^ (value.log2 + place) * 2 ^ (52 - value.log2) =
        2 ^ (52 + place) * 2 ^ (value.log2 - 52) := by
    rw [← Nat.pow_add, ← Nat.pow_add]
    congr 1
    omega
  constructor
  · calc 2 ^ 52 = roundEven (2 ^ 52 * 2 ^ (value.log2 - 52)) (2 ^ (value.log2 - 52)) :=
          (roundEven_mul _ unit).symm
      _ ≤ naturalSignificand value := by
          apply roundEven_mono
          rw [← Nat.add_zero 52, ← shifted 0]
          exact Nat.mul_le_mul_right _ below
  · calc naturalSignificand value
        ≤ roundEven (2 ^ 53 * 2 ^ (value.log2 - 52)) (2 ^ (value.log2 - 52)) := by
          apply roundEven_mono
          rw [show 53 = 52 + 1 from rfl, ← shifted 1]
          exact Nat.mul_le_mul_right _ above
      _ = 2 ^ 53 := roundEven_mul _ unit

theorem nearestBits_natural (positive : 0 < value) :
    nearestBits value 1 =
      min ((value.log2 + 1022) * 2 ^ 52 + naturalSignificand value) (0x7FF * 2 ^ 52) := by
  have offset : ((value.log2 : Int) - 52 + 1074).toNat = value.log2 + 1022 := by omega
  have nonzero : ¬ (value = 0 ∨ 1 = 0) := by omega
  unfold nearestBits
  rw [if_neg nonzero, lastPlace_natural positive]
  have places : scaled 2 ((value.log2 : Int) - 52) =
      (2 ^ (value.log2 - 52), 2 ^ (52 - value.log2)) := scaled_two_sub value.log2 52
  simp only [places, offset, Nat.one_mul]
  rfl

theorem nearestBits_mono (le : first ≤ second) : nearestBits first 1 ≤ nearestBits second 1 := by
  rcases Nat.eq_zero_or_pos first with rfl | positive
  · exact Nat.zero_le _
  have larger : 0 < second := Nat.lt_of_lt_of_le positive le
  rw [nearestBits_natural positive, nearestBits_natural larger]
  suffices grows : (first.log2 + 1022) * 2 ^ 52 + naturalSignificand first ≤
      (second.log2 + 1022) * 2 ^ 52 + naturalSignificand second by omega
  have places : first.log2 ≤ second.log2 := by
    rw [Nat.log2_eq_log_two, Nat.log2_eq_log_two]
    exact Nat.log_mono_right le
  have firstBounds := naturalSignificand_bounds positive
  have secondBounds := naturalSignificand_bounds larger
  rcases Nat.lt_or_eq_of_le places with below | same
  · omega
  · have significands : naturalSignificand first ≤ naturalSignificand second := by
      unfold naturalSignificand
      rw [same]
      exact roundEven_mono _ (Nat.mul_le_mul_right _ le)
    omega

theorem nearestBits_bounds (positive : 0 < value) (bound : value < 2 ^ 64) :
    2 ^ 52 ≤ nearestBits value 1 ∧ nearestBits value 1 < 0x7FF * 2 ^ 52 := by
  have place : value.log2 < 64 := (Nat.log2_lt (Nat.ne_of_gt positive)).2 bound
  have significand := naturalSignificand_bounds positive
  rw [nearestBits_natural positive]
  omega

end Schemata.Double
