import Mathlib.Analysis.Convex.Segment
import Mathlib.Analysis.Normed.Module.Convex
import Mathlib.Analysis.SpecialFunctions.Exp

/-!
# Gliding towards a goal

A point glides towards a goal when the part of the way that is left shrinks by a factor
`exp (-k * t)` in a time `t`.  Neither a rate nor a time below zero counts for anything.
Gliding for a while and then for a while longer is gliding once, which is why the result
does not depend on how the time was cut; and the point never leaves the segment between
where it was and its goal, which bounds it by all the goals it has ever had.
-/

namespace Konative

universe u

/-! ## The part of the way that is left -/

/-- The part of the way that is left after gliding at rate `k` for a time `t`. -/
noncomputable def retained (k t : ℝ) : ℝ := Real.exp (-(max k 0 * max t 0))

theorem retained_pos (k t : ℝ) : 0 < retained k t := Real.exp_pos _

theorem retained_le_one (k t : ℝ) : retained k t ≤ 1 := by
  rw [retained, Real.exp_le_one_iff, neg_nonpos]
  exact mul_nonneg (le_max_right k 0) (le_max_right t 0)

theorem retained_lt_one {k t : ℝ} (hk : 0 < k) (ht : 0 < t) : retained k t < 1 := by
  rw [retained, max_eq_left hk.le, max_eq_left ht.le, Real.exp_lt_one_iff, neg_neg_iff_pos]
  exact mul_pos hk ht

theorem retained_of_rate_nonpos {k : ℝ} (hk : k ≤ 0) (t : ℝ) : retained k t = 1 := by
  rw [retained, max_eq_right hk, zero_mul, neg_zero, Real.exp_zero]

theorem retained_of_time_nonpos (k : ℝ) {t : ℝ} (ht : t ≤ 0) : retained k t = 1 := by
  rw [retained, max_eq_right ht, mul_zero, neg_zero, Real.exp_zero]

theorem retained_of_pos {k t : ℝ} (hk : 0 < k) (ht : 0 < t) :
    retained k t = Real.exp (-k * t) := by
  rw [retained, max_eq_left hk.le, max_eq_left ht.le, neg_mul]

/-- What is left after two stretches of time is what is left after both together. -/
theorem retained_add (k : ℝ) {s t : ℝ} (hs : 0 ≤ s) (ht : 0 ≤ t) :
    retained k (s + t) = retained k s * retained k t := by
  rw [retained, retained, retained, max_eq_left hs, max_eq_left ht, max_eq_left (add_nonneg hs ht),
    ← Real.exp_add, mul_add, neg_add]

/-! ## Gliding -/

section Module

variable {E : Type u} [AddCommGroup E] [Module ℝ E]

/-- Where a point at `x` is after gliding towards `g`. -/
noncomputable def glide (k t : ℝ) (g x : E) : E := g + retained k t • (x - g)

theorem glide_sub (k t : ℝ) (g x : E) : glide k t g x - g = retained k t • (x - g) :=
  add_sub_cancel_left ..

theorem glide_of_retained {k t : ℝ} (h : retained k t = 1) (g x : E) : glide k t g x = x := by
  rw [glide, h, one_smul, add_sub_cancel]

/-- A weighted mean of the two ends is a way of gliding. -/
theorem glide_eq_mix (k t : ℝ) (g x : E) :
    glide k t g x = retained k t • x + (1 - retained k t) • g := by
  rw [glide]
  module

/-- Gliding on is gliding once. -/
theorem glide_glide (k : ℝ) {s t : ℝ} (hs : 0 ≤ s) (ht : 0 ≤ t) (g x : E) :
    glide k t g (glide k s g x) = glide k (s + t) g x := by
  rw [glide, glide_sub, smul_smul, mul_comm, ← retained_add k hs ht, glide]

/-- A gliding point stays on the segment between where it was and its goal. -/
theorem glide_mem_segment (k t : ℝ) (g x : E) : glide k t g x ∈ segment ℝ x g := by
  refine ⟨retained k t, 1 - retained k t, (retained_pos k t).le, ?_, ?_, ?_⟩
  · exact sub_nonneg.mpr (retained_le_one k t)
  · exact add_sub_cancel ..
  · exact (glide_eq_mix k t g x).symm

end Module

section Normed

variable {E : Type u} [NormedAddCommGroup E] [NormedSpace ℝ E]

theorem dist_glide (k t : ℝ) (g x : E) : dist (glide k t g x) g = retained k t * dist x g := by
  rw [dist_eq_norm, glide_sub, norm_smul, Real.norm_of_nonneg (retained_pos k t).le, dist_eq_norm]

/-- Gliding never takes a point away from its goal. -/
theorem dist_glide_le (k t : ℝ) (g x : E) : dist (glide k t g x) g ≤ dist x g := by
  rw [dist_glide]
  exact mul_le_of_le_one_left dist_nonneg (retained_le_one k t)

/-- It takes a point nearer whenever there is a way to go and time to go it. -/
theorem dist_glide_lt {k t : ℝ} (hk : 0 < k) (ht : 0 < t) {g x : E} (h : x ≠ g) :
    dist (glide k t g x) g < dist x g := by
  rw [dist_glide]
  exact mul_lt_of_lt_one_left (dist_pos.mpr h) (retained_lt_one hk ht)

end Normed

/-- On a line, a gliding point stays between where it was and its goal. -/
theorem glide_mem_uIcc (k t g x : ℝ) : glide k t g x ∈ Set.uIcc x g := by
  rw [← segment_eq_uIcc]
  exact glide_mem_segment k t g x

/-! ## Bounds by a list of values -/

section Spans

variable {α : Type u} [LinearOrder α] {vs ws : List α} {a b v : α}

/-- The value lies between the least and the greatest of the list. -/
def Spans (vs : List α) (v : α) : Prop := (∃ lo ∈ vs, lo ≤ v) ∧ ∃ hi ∈ vs, v ≤ hi

theorem spans_of_mem (h : v ∈ vs) : Spans vs v := ⟨⟨v, h, le_rfl⟩, v, h, le_rfl⟩

/-- What lies between two values of the span is in it too. -/
theorem Spans.between (ha : Spans vs a) (hb : Spans vs b) (h : v ∈ Set.uIcc a b) :
    Spans vs v := by
  constructor
  · obtain ⟨⟨la, hla, hla'⟩, -⟩ := ha
    obtain ⟨⟨lb, hlb, hlb'⟩, -⟩ := hb
    rcases le_total a b with hab | hab
    · rw [Set.uIcc_of_le hab] at h
      exact ⟨la, hla, hla'.trans h.1⟩
    · rw [Set.uIcc_of_ge hab] at h
      exact ⟨lb, hlb, hlb'.trans h.1⟩
  · obtain ⟨-, ha', hha, hha'⟩ := ha
    obtain ⟨-, hb', hhb, hhb'⟩ := hb
    rcases le_total a b with hab | hab
    · rw [Set.uIcc_of_le hab] at h
      exact ⟨hb', hhb, h.2.trans hhb'⟩
    · rw [Set.uIcc_of_ge hab] at h
      exact ⟨ha', hha, h.2.trans hha'⟩

/-- A span of values that a list spans is spanned by the list. -/
theorem Spans.trans (h : Spans ws v) (hws : ∀ w ∈ ws, Spans vs w) : Spans vs v := by
  obtain ⟨⟨lo, hlo, hlv⟩, hi, hhi, hvh⟩ := h
  obtain ⟨⟨lo', hlo', hl⟩, -⟩ := hws lo hlo
  obtain ⟨-, hi', hhi', hh⟩ := hws hi hhi
  exact ⟨⟨lo', hlo', hl.trans hlv⟩, hi', hhi', hvh.trans hh⟩

end Spans

end Konative
