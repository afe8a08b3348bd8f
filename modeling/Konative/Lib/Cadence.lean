import Mathlib.Data.Nat.Notation

/-!
# Every so many counts

Something is done whenever a counter is a multiple of an interval, and the counter wraps
around.  Where the interval does not divide the size of the counter, the time at the wrap
comes early.  It is never late: from any count on, one of the next `interval` ones is a
multiple (`exists_since_eq_zero`).
-/

/-- Multiples of `interval` of a counter that wraps around at `size`. -/
structure Cadence where
  size : ℕ
  interval : ℕ

namespace Cadence

variable (c : Cadence) {t : ℕ}

/-- How many counts ago it was done, after `t` counts. -/
def since (t : ℕ) : ℕ := t % c.size % c.interval

/-- The count in which it was done last. -/
def last (t : ℕ) : ℕ := t - c.since t

variable {c}

theorem last_le (c : Cadence) (t : ℕ) : c.last t ≤ t := Nat.sub_le ..

theorem lt_last_add (h : 0 < c.interval) : t < c.last t + c.interval := by
  have hlt : c.since t < c.interval := Nat.mod_lt _ h
  unfold last
  omega

theorem last_of_since_eq_zero (h : c.since t = 0) : c.last t = t := by
  rw [last, h, Nat.sub_zero]

/-- What is left of a number without its remainder has none. -/
theorem sub_mod_mod (t n m : ℕ) : (t - t % n % m) % n % m = 0 := by
  have hsplit : t - t % n % m = n * (t / n) + m * (t % n / m) := by
    have hn := Nat.div_add_mod t n
    have hm := Nat.div_add_mod (t % n) m
    omega
  rcases Nat.eq_zero_or_pos n with rfl | hn
  · rw [hsplit, Nat.zero_mul, Nat.zero_add, Nat.mod_zero, Nat.mul_mod_right]
  · have hlt : m * (t % n / m) < n := Nat.lt_of_le_of_lt (Nat.mul_div_le ..) (Nat.mod_lt _ hn)
    rw [hsplit, Nat.mul_add_mod, Nat.mod_eq_of_lt hlt, Nat.mul_mod_right]

@[simp] theorem since_last (c : Cadence) (t : ℕ) : c.since (c.last t) = 0 :=
  sub_mod_mod t c.size c.interval

/-- A remainder goes up by one, or back to zero. -/
theorem mod_succ_of_ne {a n : ℕ} (h : (a + 1) % n ≠ 0) : (a + 1) % n = a % n + 1 := by
  rcases Nat.eq_zero_or_pos n with rfl | hn
  · rw [Nat.mod_zero, Nat.mod_zero]
  have hlt : a % n < n := Nat.mod_lt _ hn
  have hsplit : a + 1 = n * (a / n) + (a % n + 1) := by
    rw [← Nat.add_assoc, Nat.div_add_mod]
  rw [hsplit, Nat.mul_add_mod] at h ⊢
  rcases Nat.lt_or_eq_of_le (Nat.succ_le_of_lt hlt) with hlt | heq
  · exact Nat.mod_eq_of_lt hlt
  · exact absurd (by rw [← Nat.succ_eq_add_one, heq, Nat.mod_self]) h

/-- In a count in which it is not done, it was done last before. -/
theorem last_succ (h : c.since (t + 1) ≠ 0) : c.last (t + 1) = c.last t := by
  have hwrap : (t + 1) % c.size ≠ 0 := by
    intro h0
    rw [since, h0, Nat.zero_mod] at h
    exact h rfl
  have hnext : c.since (t + 1) = c.since t + 1 := by
    rw [since, mod_succ_of_ne hwrap] at h ⊢
    exact mod_succ_of_ne h
  rw [last, last, hnext]
  omega

/-- It is done again within an interval. -/
theorem exists_since_eq_zero (h : 0 < c.interval) (t : ℕ) :
    ∃ i < c.interval, c.since (t + i + 1) = 0 := by
  have hlt := lt_last_add (t := t + c.interval) h
  have hle := c.last_le (t + c.interval)
  refine ⟨c.last (t + c.interval) - t - 1, by omega, ?_⟩
  have hcount : t + (c.last (t + c.interval) - t - 1) + 1 = c.last (t + c.interval) := by omega
  rw [hcount, since_last]

end Cadence
