import EventSearch.Double.Rounding
import EventSearch.Json.Basic
import Mathlib.Algebra.Order.Field.Rat
import Mathlib.Algebra.Order.Field.Power
import Mathlib.Tactic.Positivity
import Mathlib.Tactic.Ring

/-!
# Finite results of rounding

The last place of a quotient is chosen so that no more places than the precision are left
above it. A double is therefore finite unless its last place is beyond the largest one, which
the last place of a whole number of sixty-four bits is not.
-/
namespace EventSearch

namespace BinaryFormat

/-- Rounding does not pass a whole number that is above the quotient. -/
theorem roundDiv_le {num den bound : Nat} (h : num < den * bound) : roundDiv num den ≤ bound := by
  have hq : num / den < bound := Nat.div_lt_of_lt_mul h
  simp only [roundDiv]
  split
  · omega
  · split <;> omega

theorem two_zpow_mul (e : Int) : (2 : ℚ) ^ e * 2 ^ (-e).toNat = 2 ^ e.toNat := by
  rcases Int.le_total 0 e with h | h
  · have hzero : (-e).toNat = 0 := by omega
    rw [hzero, pow_zero, mul_one, ← zpow_natCast, Int.toNat_of_nonneg h]
  · have hzero : e.toNat = 0 := by omega
    have hneg : ((-e).toNat : Int) = -e := Int.toNat_of_nonneg (by omega)
    rw [hzero, ← zpow_natCast, hneg, ← zpow_add₀ two_ne_zero, add_neg_cancel, zpow_zero, pow_zero]

/-- A comparison of whole numbers that stands for one with a power of two. -/
theorem scaled_lt_iff (num den : Nat) (e : Int) :
    num * Nat.pow 2 (-e).toNat < den * Nat.pow 2 e.toNat ↔ (num : ℚ) < den * 2 ^ e := by
  have hpos : (0 : ℚ) < 2 ^ (-e).toNat := by positivity
  rw [← mul_lt_mul_iff_left₀ hpos, mul_assoc, two_zpow_mul]
  exact_mod_cast Iff.rfl

/-- The exponent of the largest power of two is not too small. -/
theorem lt_two_zpow_floorLog2 {num den : Nat} (hden : den ≠ 0) :
    (num : ℚ) < den * 2 ^ (floorLog2 num den + 1) := by
  simp only [floorLog2]
  split
  · next h =>
      rw [sub_add_cancel]
      exact (scaled_lt_iff num den _).1 h
  · have hnum : (num : ℚ) < 2 ^ (num.log2 + 1) := by exact_mod_cast Nat.lt_log2_self
    have hlow : (2 : ℚ) ^ den.log2 ≤ den := by exact_mod_cast Nat.log2_self_le hden
    have hexp : (2 : ℚ) ^ (num.log2 + 1) =
        2 ^ den.log2 * 2 ^ ((num.log2 : Int) - den.log2 + 1) := by
      rw [← zpow_natCast, ← zpow_natCast, ← zpow_add₀ two_ne_zero]
      congr 1
      push_cast
      ring
    calc (num : ℚ) < 2 ^ (num.log2 + 1) := hnum
      _ = 2 ^ den.log2 * 2 ^ ((num.log2 : Int) - den.log2 + 1) := hexp
      _ ≤ den * 2 ^ ((num.log2 : Int) - den.log2 + 1) := by gcongr

theorem floorLog2_le (num den : Nat) : floorLog2 num den ≤ num.log2 := by
  simp only [floorLog2]
  split <;> omega

/-- No more places are kept than the precision of the format. -/
theorem count_lt_of_round? {format : BinaryFormat} (hprecision : 0 < format.precision)
    {num den count : Nat} {place : Int} (hden : den ≠ 0)
    (h : format.round? num den = some (count, place)) :
    count < Nat.pow 2 format.precision := by
  have hpos : 0 < Nat.pow 2 format.precision := Nat.pow_pos (by decide)
  simp only [round?] at h
  split at h
  · cases h
    exact hpos
  · generalize hlast : max (floorLog2 num den - (format.precision - 1)) format.minPlace = last at h
    have hlog : floorLog2 num den + 1 ≤ format.precision + last := by omega
    have hquotient : (num : ℚ) < (den * Nat.pow 2 format.precision : Nat) * 2 ^ last :=
      calc (num : ℚ) < den * 2 ^ (floorLog2 num den + 1) := lt_two_zpow_floorLog2 hden
        _ ≤ den * 2 ^ ((format.precision : Int) + last) := by
          gcongr
          exact one_le_two
        _ = (den * Nat.pow 2 format.precision : Nat) * 2 ^ last := by
          rw [zpow_add₀ two_ne_zero, zpow_natCast]
          push_cast [Nat.pow_eq]
          ring
    have hscaled := (scaled_lt_iff _ _ _).2 hquotient
    rw [Nat.mul_right_comm] at hscaled
    have hcount := roundDiv_le hscaled
    have hcarry : Nat.pow 2 (format.precision - 1) < Nat.pow 2 format.precision :=
      Nat.pow_lt_pow_right (by decide) (by omega)
    obtain ⟨-, h⟩ := Option.ite_none_left_eq_some.1 h
    cases h
    split
    · exact hcarry
    · omega

/-- A quotient that is not too large for the largest last place is rounded to some double. -/
theorem exists_round?_double {num den : Nat} (h : floorLog2 num den < 1023) :
    ∃ count place, double.round? num den = some (count, place) ∧ place ≤ 971 := by
  have hplace (carried : Prop) [Decidable carried] :
      (if carried then max (floorLog2 num den - ((53 : Nat) - 1)) (-1074) + 1
        else max (floorLog2 num den - ((53 : Nat) - 1)) (-1074)) ≤ 971 := by
    split <;> omega
  simp only [round?, double]
  split
  · exact ⟨0, -1074, rfl, by decide⟩
  · exact ⟨_, _, Option.ite_none_left_eq_some.2 ⟨Int.not_lt.2 (hplace _), rfl⟩, hplace _⟩

end BinaryFormat

namespace Double

theorem magnitude_ofMagnitude (negative : Bool) {m : Nat} (h : m < Nat.pow 2 63) :
    (ofMagnitude negative m).magnitude = m := by
  change m < 9223372036854775808 at h
  rw [magnitude, ofMagnitude, UInt64.toNat_ofNat']
  change (m + if negative = true then 9223372036854775808 else 0) % 18446744073709551616 %
    9223372036854775808 = m
  split <;> omega

theorem isFinite_ofRatio (negative : Bool) {num den : Nat} (hden : den ≠ 0)
    (h : BinaryFormat.floorLog2 num den < 1023) : (ofRatio negative num den).isFinite = true := by
  obtain ⟨count, place, hround, hplace⟩ := BinaryFormat.exists_round?_double h
  have hcount : count < 9007199254740992 :=
    BinaryFormat.count_lt_of_round? (by decide) hden hround
  have hunit : Nat.pow 2 52 = 4503599627370496 := rfl
  have hword : Nat.pow 2 63 = 9223372036854775808 := rfl
  have hbound : (place + 1074).toNat ≤ 2045 := by omega
  have hfinite : (place + 1074).toNat * Nat.pow 2 52 + count < 2047 * Nat.pow 2 52 := by
    rw [hunit]
    omega
  rw [ofRatio, hround, isFinite, decide_eq_true_iff, magnitude_ofMagnitude _ (by omega)]
  exact hfinite

/-- A whole number of sixty-four bits is rounded to a finite double. -/
theorem isFinite_ofInt {n : Int} (h : FitsWord n) : (ofInt n).isFinite = true := by
  apply isFinite_ofRatio _ one_ne_zero
  have hlog := BinaryFormat.floorLog2_le n.natAbs 1
  have hsize : n.natAbs < 2 ^ 65 := by
    obtain ⟨hlow, hhigh⟩ := h
    norm_num
    omega
  have hlog2 : n.natAbs.log2 < 65 := by
    by_cases hzero : n.natAbs = 0
    · rw [hzero]
      decide
    · exact (Nat.log2_lt hzero).2 hsize
  omega

end Double

end EventSearch
