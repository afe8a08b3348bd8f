import Mathlib.Data.List.Nodup
import Mathlib.Logic.Equiv.Basic

/-!
# Exchanging two elements of a list

`exchange` swaps two positions, as a vector is rearranged in place.  Reading the
result is reading the original through the transposition of the two positions,
and everything else here follows from that: the result is a permutation, and a
prefix that the swap moves an element into, or out of, is known up to membership.
-/

universe u

namespace List

variable {α : Type u}

/-- The list with the elements at `i` and `j` exchanged. -/
def exchange (l : List α) (i j : Nat) : List α :=
  match l[i]?, l[j]? with
  | some a, some b => (l.set i b).set j a
  | _, _ => l

theorem exchange_eq {l : List α} {i j : Nat} (hi : i < l.length) (hj : j < l.length) :
    l.exchange i j = (l.set i l[j]).set j l[i] := by
  rw [exchange, getElem?_eq_getElem hi, getElem?_eq_getElem hj]

@[simp] theorem length_exchange (l : List α) (i j : Nat) : (l.exchange i j).length = l.length := by
  unfold exchange
  split
  · rw [length_set, length_set]
  · rfl

/-- The result is the original read through the transposition. -/
theorem getElem?_exchange {l : List α} {i j : Nat} (hi : i < l.length) (hj : j < l.length)
    (k : Nat) : (l.exchange i j)[k]? = l[Equiv.swap i j k]? := by
  rw [exchange_eq hi hj, getElem?_set, length_set, getElem?_set, Equiv.swap_apply_def]
  by_cases hk : k = j
  · subst hk
    by_cases hik : k = i
    · subst hik
      simp [hi]
    · simp [hik, hj, hi]
  · by_cases hki : k = i
    · subst hki
      simp [Ne.symm hk, hi, hj]
    · simp [Ne.symm hk, Ne.symm hki, hk, hki]

theorem exchange_self (l : List α) (i : Nat) : l.exchange i i = l := by
  unfold exchange
  split
  · rename_i a b ha hb
    obtain rfl := Option.some.inj (ha.symm.trans hb)
    rw [set_set]
    obtain ⟨hi, rfl⟩ := List.getElem?_eq_some_iff.mp ha
    exact set_getElem_self hi
  · rfl

theorem map_exchange {β : Type*} (f : α → β) (l : List α) (i j : Nat) :
    (l.exchange i j).map f = (l.map f).exchange i j := by
  by_cases hi : i < l.length
  · by_cases hj : j < l.length
    · refine ext_getElem? fun k ↦ ?_
      rw [getElem?_map, getElem?_exchange hi hj, getElem?_exchange (by simpa) (by simpa),
        getElem?_map]
    · simp [exchange, getElem?_eq_none (Nat.le_of_not_lt hj)]
  · simp [exchange, getElem?_eq_none (Nat.le_of_not_lt hi)]

/-- Membership of a list read through positions. -/
theorem mem_take_iff_getElem? {l : List α} {n : Nat} {a : α} :
    a ∈ l.take n ↔ ∃ k < n, l[k]? = some a := by
  rw [mem_iff_getElem?]
  constructor
  · rintro ⟨k, hk⟩
    rw [getElem?_take] at hk
    split at hk
    · exact ⟨k, ‹_›, hk⟩
    · cases hk
  · rintro ⟨k, hk, ha⟩
    exact ⟨k, by rw [getElem?_take_of_lt hk, ha]⟩

theorem mem_exchange {l : List α} {i j : Nat} {a : α} : a ∈ l.exchange i j ↔ a ∈ l := by
  by_cases hi : i < l.length
  · by_cases hj : j < l.length
    · simp only [mem_iff_getElem?, getElem?_exchange hi hj]
      exact (Equiv.swap i j).exists_congr_left.trans (by simp)
    · simp [exchange, getElem?_eq_none (Nat.le_of_not_lt hj)]
  · simp [exchange, getElem?_eq_none (Nat.le_of_not_lt hi)]

theorem nodup_iff_getElem?_inj {l : List α} :
    l.Nodup ↔ ∀ {i j : Nat} {a : α}, l[i]? = some a → l[j]? = some a → i = j := by
  constructor
  · intro h i j a hi hj
    obtain ⟨hi', rfl⟩ := getElem?_eq_some_iff.mp hi
    obtain ⟨hj', he⟩ := getElem?_eq_some_iff.mp hj
    exact (h.getElem_inj_iff.mp he).symm
  · intro h
    rw [nodup_iff_injective_getElem]
    intro x y hxy
    have hy : l[y.1]? = some l[x.1] := by
      rw [getElem?_eq_getElem y.2]
      exact congrArg _ hxy.symm
    exact Fin.ext (h (getElem?_eq_getElem x.2) hy)

theorem nodup_exchange {l : List α} {i j : Nat} : (l.exchange i j).Nodup ↔ l.Nodup := by
  by_cases hi : i < l.length
  · by_cases hj : j < l.length
    · simp only [nodup_iff_getElem?_inj, getElem?_exchange hi hj]
      constructor
      · intro h k m a hk hm
        have := @h (Equiv.swap i j k) (Equiv.swap i j m) a (by simpa) (by simpa)
        exact (Equiv.swap i j).injective this
      · intro h k m a hk hm
        exact (Equiv.swap i j).injective (h hk hm)
    · simp [exchange, getElem?_eq_none (Nat.le_of_not_lt hj)]
  · simp [exchange, getElem?_eq_none (Nat.le_of_not_lt hi)]

/-- Swapping an element from behind a prefix to its end extends the prefix by it. -/
theorem take_exchange_succ {l : List α} {n p : Nat} {a : α} (hn : n ≤ p) (hp : l[p]? = some a) :
    (l.exchange p n).take (n + 1) = l.take n ++ [a] := by
  obtain ⟨hlt, rfl⟩ := getElem?_eq_some_iff.mp hp
  have hn' : n < l.length := Nat.lt_of_le_of_lt hn hlt
  refine ext_getElem? fun k ↦ ?_
  rw [getElem?_take]
  split
  · rename_i hk
    rw [getElem?_exchange hlt hn']
    rcases Nat.lt_succ_iff_lt_or_eq.mp hk with hk | rfl
    · rw [Equiv.swap_apply_of_ne_of_ne (by omega) (by omega), getElem?_append_left (by simp; omega),
        getElem?_take_of_lt hk]
    · have hle : (l.take k).length ≤ k := by rw [length_take]; exact Nat.min_le_left ..
      rw [Equiv.swap_apply_right, getElem?_append_right hle, getElem?_eq_getElem hlt]
      simp [Nat.min_eq_left (Nat.le_of_lt hn')]
  · rename_i hk
    rw [getElem?_eq_none]
    simp
    omega

/-- Swapping an element of a prefix to its end and cutting it off leaves the other
elements of the prefix. -/
theorem mem_take_exchange_pred {l : List α} (hl : l.Nodup) {n p : Nat} {a b : α} (hp : p < n)
    (hn : n ≤ l.length) (ha : l[p]? = some a) :
    b ∈ (l.exchange p (n - 1)).take (n - 1) ↔ b ∈ l.take n ∧ b ≠ a := by
  have hpl : p < l.length := by omega
  have hnl : n - 1 < l.length := by omega
  simp only [mem_take_iff_getElem?, getElem?_exchange hpl hnl]
  constructor
  · rintro ⟨k, hk, hb⟩
    have hlt : Equiv.swap p (n - 1) k < n := by
      rw [Equiv.swap_apply_def]; split_ifs <;> omega
    refine ⟨⟨_, hlt, hb⟩, ?_⟩
    rintro rfl
    have := nodup_iff_getElem?_inj.mp hl hb ha
    rw [Equiv.swap_apply_def] at this
    split_ifs at this <;> omega
  · rintro ⟨⟨k, hk, hb⟩, hne⟩
    have hkp : k ≠ p := by
      rintro rfl
      exact hne (Option.some.inj (hb.symm.trans ha))
    refine ⟨Equiv.swap p (n - 1) k, ?_, by rwa [Equiv.swap_apply_self]⟩
    rw [Equiv.swap_apply_def]
    split_ifs <;> omega

end List
