import Mathlib.Data.List.Basic

/-!
# Machines with hidden events

A machine takes events one by one, changes its state, and puts out what can be seen.
An event is *hidden* when taking it cannot be seen, neither at once nor later.  That
is a property of a relation between states (`Hides`): a hidden event keeps a state
related to one that did not take it, and a visible one takes related states to
related states with the same output.

`Hides.run` is the rule: a run can be seen no more than the same run with the hidden
events left out.
-/

universe u v w

/-- A machine that may refuse an event. -/
structure Machine (State : Type u) (Event : Type v) (Out : Type w) where
  step : State → Event → Option (State × List Out)

namespace Machine

variable {State : Type u} {Event : Type v} {Out : Type w}

/-- Take a word of events, collecting the output. -/
def run (M : Machine State Event Out) : List Event → State → Option (State × List Out)
  | [], s => some (s, [])
  | e :: w, s => (M.step s e).bind fun x ↦ (M.run w x.1).map fun y ↦ (y.1, x.2 ++ y.2)

variable {M : Machine State Event Out} {s s' t : State} {e : Event} {w : List Event}
  {out : List Out}

theorem run_cons_eq_some (h : M.run (e :: w) s = some (s', out)) :
    ∃ s₁ out₁ out₂, M.step s e = some (s₁, out₁) ∧ M.run w s₁ = some (s', out₂) ∧
      out = out₁ ++ out₂ := by
  obtain ⟨⟨s₁, out₁⟩, h₁, h⟩ := Option.bind_eq_some_iff.mp h
  obtain ⟨⟨s₂, out₂⟩, h₂, h⟩ := Option.map_eq_some_iff.mp h
  obtain ⟨rfl, rfl⟩ := Prod.mk.inj h
  exact ⟨s₁, out₁, out₂, h₁, h₂, rfl⟩

theorem run_append (M : Machine State Event Out) (w w' : List Event) (s : State) :
    M.run (w ++ w') s =
      (M.run w s).bind fun x ↦ (M.run w' x.1).map fun y ↦ (y.1, x.2 ++ y.2) := by
  induction w generalizing s with
  | nil => simp [run]
  | cons e w ih =>
      rw [List.cons_append, run, run]
      cases M.step s e with
      | none => rfl
      | some x =>
          rw [Option.bind_some, Option.bind_some, ih]
          cases M.run w x.1 with
          | none => rfl
          | some y => simp [Function.comp_def]

/-- The events picked out by `hidden` cannot be seen through `R`. -/
structure Hides (M : Machine State Event Out) (hidden : Event → Bool)
    (R : State → State → Prop) : Prop where
  hide : ∀ {s s' t e out}, hidden e = true → R s t → M.step s e = some (s', out) →
    out = [] ∧ R s' t
  keep : ∀ {s s' t e out}, hidden e = false → R s t → M.step s e = some (s', out) →
    ∃ t', M.step t e = some (t', out) ∧ R s' t'

/-- Leaving the hidden events out of a run changes nothing that can be seen. -/
theorem Hides.run {hidden : Event → Bool} {R : State → State → Prop} (h : M.Hides hidden R)
    (hR : R s t) (hrun : M.run w s = some (s', out)) :
    ∃ t', M.run (w.filter fun e ↦ !hidden e) t = some (t', out) ∧ R s' t' := by
  induction w generalizing s t out with
  | nil =>
      obtain ⟨rfl, rfl⟩ := Prod.mk.inj (Option.some.inj hrun)
      exact ⟨t, rfl, hR⟩
  | cons e w ih =>
      obtain ⟨s₁, out₁, out₂, h₁, h₂, rfl⟩ := run_cons_eq_some hrun
      cases he : hidden e with
      | true =>
          obtain ⟨rfl, hR⟩ := h.hide he hR h₁
          rw [List.filter_cons_of_neg (by simp [he])]
          exact ih hR h₂
      | false =>
          obtain ⟨t₁, ht₁, hR⟩ := h.keep he hR h₁
          obtain ⟨t', ht', hR⟩ := ih hR h₂
          refine ⟨t', ?_, hR⟩
          rw [List.filter_cons_of_pos (by simp [he]), Machine.run, ht₁, Option.bind_some, ht']
          rfl

end Machine
