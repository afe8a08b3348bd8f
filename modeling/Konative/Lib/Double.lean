import Mathlib.Order.Compare

/-!
# Comparing and converting doubles

C's `double`, `float` and `int` are Lean's `Float`, `Float32` and `Int32`.  Two
things are needed of them here.  On numbers that are not NaN, the IEEE comparison
is total, so that not being below a bound is being at or above it.  And the two
narrowing conversions C performs with `static_cast` are given by the model of
floating-point numbers: truncation to an integer, and rounding to single
precision.
-/

namespace Float

open Model

/-- Exchanging the operands of an IEEE comparison reverses its outcome. -/
theorem Model.UnpackedFloat.compare_swap (a b : UnpackedFloat) :
    b.compare a = (a.compare b).map Ordering.swap := by
  have hswap : ∀ (e e' : Int) (m m' : Nat), (compare e' e).then (compare m' m) =
      ((compare e e').then (compare m m')).swap := by
    intro e e' m m'
    rw [Ordering.swap_then, ← Int.compare_swap e, ← Nat.compare_swap m]
  rcases a with s | _ | s | ⟨s, m, e, h⟩ <;> rcases b with t | _ | t | ⟨t, m', e', h'⟩ <;>
    (try cases s) <;> (try cases t) <;> try rfl
  · exact congrArg (some ·.swap) (hswap e e' m m')
  · exact congrArg some (hswap e e' m m')

theorem Model.UnpackedFloat.compare_isSome {a b : UnpackedFloat} (ha : a ≠ .notANumber)
    (hb : b ≠ .notANumber) : (a.compare b).isSome = true := by
  rcases a with s | _ | s | ⟨s, m, e, h⟩ <;> rcases b with t | _ | t | ⟨t, m', e', h'⟩ <;>
    (try cases s) <;> (try cases t) <;> first | rfl | exact absurd rfl ha | exact absurd rfl hb

theorem unpack_ne {x : Float} (h : x.isNaN = false) : x.toModel.unpack ≠ .notANumber := by
  intro hx
  have hnan : x.isNaN = x.toModel.unpack.isNaN := rfl
  rw [hnan, hx] at h
  cases h

/-- Of numbers that are not NaN, one that is not below another is at or above it. -/
theorem not_lt_iff {x y : Float} (hx : x.isNaN = false) (hy : y.isNaN = false) :
    ¬ x < y ↔ y ≤ x := by
  have hlt : x < y ↔ (x.toModel.unpack.compare y.toModel.unpack == some .lt) = true :=
    decide_eq_true_iff
  have hle : y ≤ x ↔ (y.toModel.unpack.compare x.toModel.unpack).any (·.isLE) = true :=
    decide_eq_true_iff
  have hx : x.toModel.unpack ≠ .notANumber := unpack_ne hx
  have hy : y.toModel.unpack ≠ .notANumber := unpack_ne hy
  obtain ⟨o, ho⟩ := Option.isSome_iff_exists.mp (Model.UnpackedFloat.compare_isSome hx hy)
  rw [hlt, hle, Model.UnpackedFloat.compare_swap x.toModel.unpack, ho]
  cases o <;> decide

/-- `static_cast<int>(x)` for an `x` in range: truncation. -/
def castInt (x : Float) : Int32 := x.toModel.toInt32

/-- `static_cast<float>(x)` for an `x` in range: rounding to nearest, ties to even. -/
def castSingle (x : Float) : Float32 :=
  .ofModel <| .pack <|
    match x.toModel.unpack with
    | .finite s m e _ => .round .binary32 s m e
    | u => u

end Float
