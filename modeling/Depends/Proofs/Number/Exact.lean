import Depends.Number
import Mathlib.Algebra.Order.Field.Power
import Mathlib.Data.Rat.Floor
import Mathlib.Tactic.Linarith
import Mathlib.Tactic.FieldSimp
import Mathlib.Tactic.Ring
import Mathlib.Tactic.NormNum

/-!
Numbers that need no rounding. A whole number of at most 53 bits times a power of two is the nearest number to itself,
unless it goes below the smallest bit (`nearest_of_fits`).
-/
namespace Depends.Number

theorem roundEven_intCast (n : Int) : roundEven n = n := by
  have whole : (n : Rat).floor = n := Rat.floor_intCast n
  simp [roundEven,whole]

theorem powerOfTwo_pos (k : Int) : 0 < powerOfTwo k := zpow_pos (by norm_num) k

theorem powerOfTwo_add (k l : Int) : powerOfTwo (k + l) = powerOfTwo k * powerOfTwo l :=
  zpow_add₀ (by norm_num) k l

theorem powerOfTwo_natCast (n : Nat) : powerOfTwo n = (2 ^ n : Nat) := by
  rw [powerOfTwo,zpow_natCast]
  norm_cast

theorem powerOfTwo_le_iff {k l : Int} : powerOfTwo k ≤ powerOfTwo l ↔ k ≤ l :=
  zpow_le_zpow_iff_right₀ (by norm_num)

/-- The leading bit of a positive number is not above it. -/
theorem powerOfTwo_leadingBit {x : Rat} (positive : 0 < x) : powerOfTwo (leadingBit x) ≤ x := by
  unfold leadingBit
  extract_lets guess
  split
  · -- The numerator is at least its leading bit, and the denominator below twice its own.
    have numerator : ((x.num.natAbs : Nat) : Rat) = x.num := by
      rw [Nat.cast_natAbs,abs_of_pos (Rat.num_pos.mpr positive)]
    have top : powerOfTwo (Nat.log2 x.num.natAbs) ≤ x.num := by
      rw [powerOfTwo_natCast,← numerator]
      have filled : x.num.natAbs ≠ 0 := Int.natAbs_ne_zero.mpr (Rat.num_pos.mpr positive).ne'
      exact_mod_cast Nat.log2_self_le filled
    have bottom : (x.den : Rat) ≤ powerOfTwo (Nat.log2 x.den + 1 : Nat) := by
      rw [powerOfTwo_natCast]
      exact_mod_cast Nat.le_of_lt Nat.lt_log2_self
    have den : (0 : Rat) < x.den := by exact_mod_cast x.den_pos
    have product : powerOfTwo (guess - 1) * x.den ≤ x.num :=
      calc powerOfTwo (guess - 1) * x.den
        _ ≤ powerOfTwo (guess - 1) * powerOfTwo (Nat.log2 x.den + 1 : Nat) :=
          mul_le_mul_of_nonneg_left bottom (powerOfTwo_pos _).le
        _ = powerOfTwo (Nat.log2 x.num.natAbs) := by
          rw [← powerOfTwo_add]
          congr 1
          push_cast
          omega
        _ ≤ x.num := top
    calc powerOfTwo (guess - 1)
      _ ≤ x.num / x.den := (le_div_iff₀ den).mpr product
      _ = x := Rat.num_div_den x
  · rename_i above
    exact not_lt.mp above

/-- A number with at most 53 significant bits, all of them at or above the smallest one. -/
def Fits (x : Rat) : Prop := ∃ (m : Nat) (e : Int), m < 2 ^ 53 ∧ -1074 ≤ e ∧ x = m * powerOfTwo e

theorem fits_natCast {n : Nat} (few : n < 2 ^ 53) : Fits n := ⟨n,0,few,by decide,by simp [powerOfTwo]⟩

theorem fits_half {n : Nat} (few : n < 2 ^ 53) : Fits (n / 2) :=
  ⟨n,-1,few,by decide,by simp [powerOfTwo,div_eq_mul_inv]⟩

/-- Such a number is not rounded. -/
theorem nearest_of_fits {x : Rat} (fits : Fits x) : nearest x = x := by
  obtain ⟨m,e,few,low,rfl⟩ := fits
  by_cases zero : (m * powerOfTwo e : Rat) = 0
  · simp [nearest,zero]
  have nonneg : (0 : Rat) ≤ m * powerOfTwo e := mul_nonneg (Nat.cast_nonneg m) (powerOfTwo_pos e).le
  have positive : (0 : Rat) < m * powerOfTwo e := lt_of_le_of_ne nonneg (Ne.symm zero)
  simp only [nearest,zero,↓reduceIte,not_lt.mpr nonneg]
  generalize unitIs : max (leadingBit (m * powerOfTwo e) - 52) (-1074) = unit
  -- The leading bit is less than 53 places above the last one, so the unit divides the number.
  have fine : unit ≤ e := by
    have leading : powerOfTwo (leadingBit (m * powerOfTwo e)) < powerOfTwo (53 + e) := by
      refine lt_of_le_of_lt (powerOfTwo_leadingBit positive) ?_
      rw [powerOfTwo_add]
      refine mul_lt_mul_of_pos_right ?_ (powerOfTwo_pos e)
      calc (m : Rat)
        _ < (2 ^ 53 : Nat) := by exact_mod_cast few
        _ = powerOfTwo 53 := (powerOfTwo_natCast 53).symm
    have below := lt_of_not_ge (mt powerOfTwo_le_iff.mpr (not_le.mpr leading))
    omega
  obtain ⟨k,rest⟩ := Int.eq_ofNat_of_zero_le (sub_nonneg.mpr fine)
  have quotient : m * powerOfTwo e / powerOfTwo unit = ((m * 2 ^ k : Nat) : Int) := by
    rw [div_eq_iff (powerOfTwo_pos unit).ne',show e = k + unit by omega,powerOfTwo_add,powerOfTwo_natCast]
    push_cast
    ring
  rw [quotient,roundEven_intCast,← quotient,div_mul_cancel₀ _ (powerOfTwo_pos unit).ne']

end Depends.Number
