import Mathlib.Data.List.Basic

/-!
# Checklists

A checklist is a list of entries, each with the error that it is reported as, and a run of it
gives the outcomes of its first entries in their order.  `first` is the error of the first
entry that a test holds of: with the test that tells a failure, it is what ought to be
reported, and with the test that a program makes, what it reports.
-/

universe u v w

namespace Checklist

variable {S : Type u} {X : Type v} {E : Type w}

/-- The error of the first entry whose outcome has `p`. -/
def first (p : S → X → Bool) (error : S → E) : List S → List X → Option E
  | st :: sts, x :: xs => if p st x then some (error st) else first p error sts xs
  | [], _ | _, [] => none

variable {p : S → X → Bool} {error : S → E} {sts : List S} {xs ys : List X} {Y : E}

theorem first_append : first p error sts (xs ++ ys) =
    (first p error sts xs).or (first p error (sts.drop xs.length) ys) := by
  induction xs generalizing sts with
  | nil => cases sts <;> rfl
  | cons x xs ih =>
      cases sts with
      | nil => cases ys <;> rfl
      | cons st sts =>
          rw [List.cons_append, first, first]
          split
          · rfl
          · exact ih

theorem first_singleton {st : S} {x : X} :
    first p error (st :: sts) [x] = if p st x then some (error st) else none := by
  rw [first]
  cases sts <;> rfl

/-- The outcome that comes next. -/
theorem first_concat (h : first p error sts xs = none) {st : S} (hst : sts[xs.length]? = some st)
    (x : X) : first p error sts (xs ++ [x]) = if p st x then some (error st) else none := by
  obtain ⟨hlt, rfl⟩ := List.getElem?_eq_some_iff.mp hst
  rw [first_append, h, Option.none_or, List.drop_eq_getElem_cons hlt, first_singleton]

/-- What has been found stays found. -/
theorem first_mono (h : xs <+: ys) (hY : first p error sts xs = some Y) :
    first p error sts ys = some Y := by
  obtain ⟨zs, rfl⟩ := h
  rw [first_append, hY, Option.some_or]

/-- What comes after the last entry changes nothing. -/
theorem first_of_complete (h : xs <+: ys) (hn : sts.length ≤ xs.length) :
    first p error sts ys = first p error sts xs := by
  obtain ⟨zs, rfl⟩ := h
  rw [first_append, List.drop_eq_nil_of_le hn, first, Option.or_none]

/-- The entry that was found, and that none before it was. -/
theorem first_eq_some (h : first p error sts xs = some Y) :
    ∃ (i : Nat) (st : S) (x : X), sts[i]? = some st ∧ xs[i]? = some x ∧
      p st x = true ∧ error st = Y ∧
      ∀ j < i, ∀ st' x', sts[j]? = some st' → xs[j]? = some x' → p st' x' = false := by
  induction xs generalizing sts with
  | nil => cases sts <;> cases h
  | cons x xs ih =>
      cases sts with
      | nil => cases h
      | cons st sts =>
          rw [first] at h
          split at h
          · rename_i hp
            exact ⟨0, st, x, rfl, rfl, hp, Option.some.inj h, fun j hj ↦
              absurd hj (Nat.not_lt_zero j)⟩
          · rename_i hp
            obtain ⟨i, st', x', hst, hx, hp', hY, hbefore⟩ := ih h
            refine ⟨i + 1, st', x', hst, hx, hp', hY, ?_⟩
            rintro (_ | j) hj st'' x'' hst'' hx''
            · obtain rfl := Option.some.inj hst''
              obtain rfl := Option.some.inj hx''
              exact Bool.not_eq_true _ ▸ hp
            · exact hbefore j (Nat.lt_of_succ_lt_succ hj) st'' x'' hst'' hx''

/-- The first entry that `p` holds of is found. -/
theorem first_eq {i : Nat} {st : S} {x : X} (hst : sts[i]? = some st) (hx : xs[i]? = some x)
    (hp : p st x = true) (hbefore : ∀ j < i, ∀ st' x', sts[j]? = some st' → xs[j]? = some x' →
      p st' x' = false) : first p error sts xs = some (error st) := by
  induction i generalizing sts xs with
  | zero =>
      obtain ⟨sts, rfl⟩ := List.head?_eq_some_iff.mp (List.head?_eq_getElem?.trans hst)
      obtain ⟨xs, rfl⟩ := List.head?_eq_some_iff.mp (List.head?_eq_getElem?.trans hx)
      rw [first, if_pos hp]
  | succ i ih =>
      cases sts with
      | nil => cases hst
      | cons st' sts =>
          cases xs with
          | nil => cases hx
          | cons x' xs =>
              rw [first, if_neg (Bool.not_eq_true _ ▸ hbefore 0 (Nat.succ_pos i) st' x' rfl rfl)]
              exact ih hst hx fun j hj ↦ hbefore (j + 1) (Nat.succ_lt_succ hj)

theorem first_ne_none {i : Nat} {st : S} {x : X} (hst : sts[i]? = some st)
    (hx : xs[i]? = some x) (hp : p st x = true) : first p error sts xs ≠ none := by
  induction xs generalizing sts i with
  | nil => cases hx
  | cons y xs ih =>
      cases sts with
      | nil => cases hst
      | cons st' sts =>
          rw [first]
          split
          · exact Option.some_ne_none _
          · rename_i hn
            cases i with
            | zero =>
                obtain rfl := Option.some.inj hst
                obtain rfl := Option.some.inj hx
                exact absurd hp hn
            | succ i => exact ih hst hx

end Checklist
