import Mathlib.Analysis.Quaternion

/-!
# Turning by a quaternion

A quaternion `q` turns `v` to `q * v * q⁻¹`.  This is linear in `v` and keeps norms, so it
keeps distances; and for a unit quaternion and a vector, which is a quaternion without a
real part, it is a matrix whose entries are written out here.
-/

namespace Konative

open Quaternion

/-- `v`, turned by `q`. -/
noncomputable def turn (q v : ℍ[ℝ]) : ℍ[ℝ] := q * v * q⁻¹

theorem turn_sub (q v w : ℍ[ℝ]) : turn q (v - w) = turn q v - turn q w := by
  rw [turn, mul_sub, sub_mul, turn, turn]

/-- Turning keeps norms. -/
theorem norm_turn {q : ℍ[ℝ]} (hq : q ≠ 0) (v : ℍ[ℝ]) : ‖turn q v‖ = ‖v‖ := by
  have hnorm : ‖q‖ ≠ 0 := norm_ne_zero_iff.mpr hq
  rw [turn, norm_mul, norm_mul, norm_inv, mul_comm ‖q‖, mul_assoc, mul_inv_cancel₀ hnorm, mul_one]

/-- So it keeps distances, wherever the result is moved to. -/
theorem dist_add_turn {q : ℍ[ℝ]} (hq : q ≠ 0) (a v w : ℍ[ℝ]) :
    dist (a + turn q v) (a + turn q w) = dist v w := by
  rw [dist_add_left, dist_eq_norm, ← turn_sub, norm_turn hq, ← dist_eq_norm]

/-! ## Unit quaternions -/

section Unit

variable {q : ℍ[ℝ]} (hq : normSq q = 1)

include hq

theorem ne_zero_of_normSq : q ≠ 0 := by
  intro h
  rw [h, map_zero] at hq
  exact zero_ne_one hq

theorem inv_of_normSq : q⁻¹ = star q := by
  rw [Quaternion.inv_def, hq, inv_one, one_smul]

theorem sq_add_of_normSq : q.re ^ 2 + q.imI ^ 2 + q.imJ ^ 2 + q.imK ^ 2 = 1 := by
  rw [← normSq_def', hq]

theorem turn_of_normSq (v : ℍ[ℝ]) : turn q v = q * v * star q := by
  rw [turn, inv_of_normSq hq]

/-! The real part stays what it is, and the matrix of a turn acts on the rest. -/

theorem re_turn (v : ℍ[ℝ]) : (turn q v).re = v.re := by
  rw [turn_of_normSq hq]
  simp only [re_mul, imI_mul, imJ_mul, imK_mul, re_star, imI_star, imJ_star, imK_star]
  linear_combination v.re * sq_add_of_normSq hq

theorem imI_turn (v : ℍ[ℝ]) :
    (turn q v).imI = (1 - 2 * (q.imJ * q.imJ + q.imK * q.imK)) * v.imI +
      2 * (q.imI * q.imJ - q.re * q.imK) * v.imJ + 2 * (q.imI * q.imK + q.re * q.imJ) * v.imK := by
  rw [turn_of_normSq hq]
  simp only [re_mul, imI_mul, imJ_mul, imK_mul, re_star, imI_star, imJ_star, imK_star]
  linear_combination v.imI * sq_add_of_normSq hq

theorem imJ_turn (v : ℍ[ℝ]) :
    (turn q v).imJ = 2 * (q.imI * q.imJ + q.re * q.imK) * v.imI +
      (1 - 2 * (q.imI * q.imI + q.imK * q.imK)) * v.imJ +
      2 * (q.imJ * q.imK - q.re * q.imI) * v.imK := by
  rw [turn_of_normSq hq]
  simp only [re_mul, imI_mul, imJ_mul, imK_mul, re_star, imI_star, imJ_star, imK_star]
  linear_combination v.imJ * sq_add_of_normSq hq

theorem imK_turn (v : ℍ[ℝ]) :
    (turn q v).imK = 2 * (q.imI * q.imK - q.re * q.imJ) * v.imI +
      2 * (q.imJ * q.imK + q.re * q.imI) * v.imJ +
      (1 - 2 * (q.imI * q.imI + q.imJ * q.imJ)) * v.imK := by
  rw [turn_of_normSq hq]
  simp only [re_mul, imI_mul, imJ_mul, imK_mul, re_star, imI_star, imJ_star, imK_star]
  linear_combination v.imK * sq_add_of_normSq hq

end Unit

end Konative
