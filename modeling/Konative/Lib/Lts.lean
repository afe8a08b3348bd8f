import Mathlib.Data.List.Basic
import Mathlib.Logic.Function.Basic

/-!
# Labelled transition systems

A system is a predicate on initial states and a labelled step relation.  A *run*
is a finite sequence of steps with the word of labels it performed; a state is
*reachable* when some run from an initial state ends in it.

Nothing here depends on what the states are.  The rules the developments above
use are `Run.invariant` (what one step preserves, a run preserves),
`Reachable.invariant` (the same from the initial states), `Run.rel` (a
reflexive and transitive relation that every step respects is respected by every
run) and `Run.conserves` (what goes in comes out in order, or is still there).
-/

universe u v

/-- A labelled transition system. -/
structure Lts (State : Type u) (Label : Type v) where
  /-- The states a run may start from. -/
  init : State → Prop
  /-- One step, and the label it performs. -/
  step : State → Label → State → Prop

namespace Lts

variable {State : Type u} {Label : Type v}

/-- `T.Run s w s'`: the system can go from `s` to `s'` performing the word `w`. -/
inductive Run (T : Lts State Label) : State → List Label → State → Prop
  /-- The run of no steps. -/
  | nil (s : State) : Run T s [] s
  /-- One step, then a run. -/
  | cons {s s' s'' : State} {ℓ : Label} {w : List Label} :
      T.step s ℓ s' → Run T s' w s'' → Run T s (ℓ :: w) s''

/-- A state some run from an initial state ends in. -/
def Reachable (T : Lts State Label) (s : State) : Prop :=
  ∃ s₀ w, T.init s₀ ∧ T.Run s₀ w s

variable {T : Lts State Label} {s s' s'' : State} {ℓ : Label} {w w' : List Label}

/-- A word is cut at its last label or before it. -/
theorem cut_snoc {w before rest : List Label} {ℓ ℓ' : Label}
    (h : w ++ [ℓ] = before ++ ℓ' :: rest) :
    (w = before ∧ ℓ = ℓ') ∨ ∃ rest', w = before ++ ℓ' :: rest' ∧ rest = rest' ++ [ℓ] := by
  rcases List.eq_nil_or_concat rest with rfl | ⟨rest, y, rfl⟩
  · obtain ⟨rfl, hx⟩ := List.append_inj' h rfl
    exact .inl ⟨rfl, List.singleton_inj.mp hx⟩
  · rw [List.concat_eq_append, ← List.cons_append, ← List.append_assoc] at h
    obtain ⟨rfl, hx⟩ := List.append_inj' h rfl
    obtain rfl := List.singleton_inj.mp hx
    exact .inr ⟨rest, rfl, List.concat_eq_append⟩

namespace Run

/-- A single step is a run. -/
theorem single (h : T.step s ℓ s') : T.Run s [ℓ] s' := .cons h (.nil s')

/-- Runs compose. -/
theorem append (h : T.Run s w s') (h' : T.Run s' w' s'') : T.Run s (w ++ w') s'' := by
  induction h with
  | nil _ => exact h'
  | cons hs _ ih => exact .cons hs (ih h')

/-- A run extended by one step at its end. -/
theorem snoc (h : T.Run s w s') (hs : T.step s' ℓ s'') : T.Run s (w ++ [ℓ]) s'' :=
  h.append (single hs)

/-- A run of a word in two parts is a run of each. -/
theorem split (h : T.Run s (w ++ w') s') : ∃ t, T.Run s w t ∧ T.Run t w' s' := by
  induction w generalizing s with
  | nil => exact ⟨s, .nil s, h⟩
  | cons ℓ w ih =>
      cases h with
      | cons hs h =>
          obtain ⟨t, h₁, h₂⟩ := ih h
          exact ⟨t, .cons hs h₁, h₂⟩

/-- Induction on the history of a run: what holds of the empty one, and is kept when
a run is extended by a step, holds of every run. -/
theorem history {P : List Label → State → Prop} (hnil : P [] s)
    (hsnoc : ∀ {w t ℓ t'}, T.Run s w t → P w t → T.step t ℓ t' → P (w ++ [ℓ]) t')
    (h : T.Run s w s') : P w s' := by
  have haux : ∀ {t v u}, T.Run t v u → ∀ {w}, T.Run s w t → P w t → P (w ++ v) u := by
    intro t v u hr
    induction hr with
    | nil _ => intro w _ hp; rwa [List.append_nil]
    | cons hs _ ih =>
        intro w hw hp
        rw [List.append_cons]
        exact ih (hw.snoc hs) (hsnoc hw hp hs)
  exact haux h (.nil s) hnil

/-- What every step preserves, every run preserves. -/
theorem invariant {I : State → Prop} (hstep : ∀ {s ℓ s'}, T.step s ℓ s' → I s → I s')
    (h : T.Run s w s') (hs : I s) : I s' := by
  induction h with
  | nil _ => exact hs
  | cons h₁ _ ih => exact ih (hstep h₁ hs)

/-- A reflexive and transitive relation that holds across every step that starts
in an invariant holds across every run that starts in it. -/
theorem rel {I : State → Prop} {R : State → State → Prop}
    (hstep : ∀ {s ℓ s'}, T.step s ℓ s' → I s → I s')
    (hrefl : ∀ s, R s s) (htrans : ∀ {s s' s''}, R s s' → R s' s'' → R s s'')
    (hR : ∀ {s ℓ s'}, T.step s ℓ s' → I s → R s s')
    (h : T.Run s w s') (hs : I s) : R s s' := by
  induction h with
  | nil s => exact hrefl s
  | cons h₁ _ ih => exact htrans (hR h₁ hs) (ih (hstep h₁ hs))

/-- What every step passes on in order, every run passes on in order: what was held,
followed by what came in, is what went out, followed by what is still held. -/
theorem conserves {β : Type*} (held : State → List β) {inp out : Label → Option β}
    (hstep : ∀ {s ℓ s'}, T.step s ℓ s' → held s ++ (inp ℓ).toList = (out ℓ).toList ++ held s')
    (h : T.Run s w s') : held s ++ w.filterMap inp = w.filterMap out ++ held s' := by
  have hcons : ∀ (f : Label → Option β) (ℓ : Label) (w : List Label),
      (ℓ :: w).filterMap f = (f ℓ).toList ++ w.filterMap f := by
    intro f ℓ w
    cases hf : f ℓ with
    | none => rw [List.filterMap_cons_none hf]; rfl
    | some b => rw [List.filterMap_cons_some hf]; rfl
  induction h with
  | nil s => simp
  | cons h₁ _ ih =>
      rw [hcons, hcons, ← List.append_assoc, hstep h₁, List.append_assoc, ih, List.append_assoc]

end Run

namespace Reachable

/-- An initial state is reachable. -/
theorem of_init (h : T.init s) : T.Reachable s := ⟨s, [], h, .nil s⟩

/-- Reachability is closed under steps. -/
theorem step (h : T.Reachable s) (hs : T.step s ℓ s') : T.Reachable s' := by
  obtain ⟨s₀, w, h₀, hr⟩ := h
  exact ⟨s₀, w ++ [ℓ], h₀, hr.snoc hs⟩

/-- Reachability is closed under runs. -/
theorem run (h : T.Reachable s) (hr : T.Run s w s') : T.Reachable s' := by
  obtain ⟨s₀, w₀, h₀, hr₀⟩ := h
  exact ⟨s₀, w₀ ++ w, h₀, hr₀.append hr⟩

/-- What holds initially and is preserved by every step holds of every reachable
state. -/
theorem invariant {I : State → Prop} (hinit : ∀ {s}, T.init s → I s)
    (hstep : ∀ {s ℓ s'}, T.step s ℓ s' → I s → I s') (h : T.Reachable s) : I s := by
  obtain ⟨s₀, w, h₀, hr⟩ := h
  exact hr.invariant hstep (hinit h₀)

end Reachable

/-! ## Numbered parties

A system of parties keeps them in a table; a step of one of them updates its entry. -/

section Table

variable {ι : Type u} {α : Type v} [DecidableEq ι] {f : ι → Option α} {i j : ι} {a x : α}

/-- An entry of an updated table is the updated one or an old one. -/
theorem update_eq_some (h : Function.update f i (some a) j = some x) :
    (j = i ∧ x = a) ∨ (j ≠ i ∧ f j = some x) := by
  by_cases hji : j = i
  · subst hji
    rw [Function.update_self] at h
    exact .inl ⟨rfl, (Option.some.inj h).symm⟩
  · rw [Function.update_of_ne hji] at h
    exact .inr ⟨hji, h⟩

/-- No entry of an updated table is missing at the update. -/
theorem update_eq_none (h : Function.update f i (some a) j = none) : j ≠ i ∧ f j = none := by
  by_cases hji : j = i
  · subst hji
    rw [Function.update_self] at h
    cases h
  · rw [Function.update_of_ne hji] at h
    exact ⟨hji, h⟩

/-- The other entries are the old ones. -/
theorem update_eq_some_of_ne (hj : j ≠ i) (h : f j = some x) :
    Function.update f i (some a) j = some x := by rw [Function.update_of_ne hj, h]

end Table

end Lts
