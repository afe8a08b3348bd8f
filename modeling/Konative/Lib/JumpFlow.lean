import Mathlib.Algebra.BigOperators.Group.List.Basic
import Mathlib.Algebra.Order.Group.Defs
import Mathlib.Tactic.Abel

/-!
# Flows with jumps

A system that moves by itself as time passes, and jumps when something happens, is driven
by samples: so much time has passed, or this has happened.  Where passing time can be cut
as one likes (`JumpFlow.add`), what has happened and when, and how much time has passed
altogether, is all that matters (`JumpFlow.run_same`): the samples in between do not.

States that cannot be told apart are `Same`, which a system may mean in any way that
flowing and jumping respect.
-/

universe u v w

/-- What drives a system. -/
inductive Sample (T : Type u) (E : Type v)
  | wait (d : T)
  | jump (e : E)

namespace Sample

variable {T : Type u} {E : Type v}

section Group

variable [AddCommGroup T]

/-- The time that passes in all. -/
def duration : List (Sample T E) → T
  | [] => 0
  | wait d :: l => d + duration l
  | jump _ :: l => duration l

/-- What happens, and when, if it is `now` at first. -/
def schedule : T → List (Sample T E) → List (T × E)
  | _, [] => []
  | now, wait d :: l => schedule (now + d) l
  | now, jump e :: l => (now, e) :: schedule now l

end Group

/-- Time does not go back. -/
def Forward [Zero T] [LE T] (l : List (Sample T E)) : Prop := ∀ d, wait d ∈ l → 0 ≤ d

theorem Forward.tail [Zero T] [LE T] {x : Sample T E} {l : List (Sample T E)}
    (h : Forward (x :: l)) : Forward l := fun d hd ↦ h d (List.mem_cons_of_mem x hd)

variable [AddCommGroup T] [LinearOrder T] [IsOrderedAddMonoid T]

theorem duration_nonneg {l : List (Sample T E)} (h : Forward l) : 0 ≤ duration l := by
  induction l with
  | nil => exact le_rfl
  | cons x l ih =>
      cases x with
      | wait d => exact add_nonneg (h d List.mem_cons_self) (ih h.tail)
      | jump e => exact ih h.tail

/-- Nothing happens before now. -/
theorem le_of_mem_schedule {now : T} {l : List (Sample T E)} (h : Forward l) {x : T × E}
    (hx : x ∈ schedule now l) : now ≤ x.1 := by
  induction l generalizing now with
  | nil => cases hx
  | cons y l ih =>
      cases y with
      | wait d => exact (le_add_of_nonneg_right (h d List.mem_cons_self)).trans (ih h.tail hx)
      | jump e =>
          rcases List.mem_cons.mp hx with rfl | hx
          · exact le_rfl
          · exact ih h.tail hx

end Sample

/-- A system that flows and jumps. -/
structure JumpFlow (S : Type w) (T : Type u) (E : Type v) [AddCommGroup T] [LE T] where
  Same : S → S → Prop
  equivalence : Equivalence Same
  flow : T → S → S
  jump : E → S → S
  flow_congr : ∀ {d s t}, Same s t → Same (flow d s) (flow d t)
  jump_congr : ∀ {e s t}, Same s t → Same (jump e s) (jump e t)
  zero : ∀ s, Same (flow 0 s) s
  add : ∀ {d d'} s, 0 ≤ d → 0 ≤ d' → Same (flow d' (flow d s)) (flow (d + d') s)

namespace JumpFlow

variable {S : Type w} {T : Type u} {E : Type v} [AddCommGroup T]

section Definitions

variable [LE T] (f : JumpFlow S T E)

/-- One sample. -/
def apply (s : S) : Sample T E → S
  | .wait d => f.flow d s
  | .jump e => f.jump e s

/-- One after the other. -/
def run (l : List (Sample T E)) (s : S) : S := l.foldl f.apply s

/-- What happens by schedule, until `stop`. -/
def replay : T → List (T × E) → T → S → S
  | now, [], stop, s => f.flow (stop - now) s
  | now, x :: l, stop, s => replay x.1 l stop (f.jump x.2 (f.flow (x.1 - now) s))

variable {f} {s t r : S}

theorem Same.refl (s : S) : f.Same s s := f.equivalence.refl s

theorem Same.trans (h : f.Same s t) (h' : f.Same t r) : f.Same s r := f.equivalence.trans h h'

theorem Same.symm (h : f.Same s t) : f.Same t s := f.equivalence.symm h

theorem replay_same {now stop : T} {l : List (T × E)} (h : f.Same s t) :
    f.Same (f.replay now l stop s) (f.replay now l stop t) := by
  induction l generalizing now s t with
  | nil => exact f.flow_congr h
  | cons x l ih => exact ih (f.jump_congr (f.flow_congr h))

end Definitions

variable [LinearOrder T] [IsOrderedAddMonoid T] {f : JumpFlow S T E} {s t : S}

/-- Having waited already is waiting less. -/
theorem replay_flow {now stop d : T} {l : List (T × E)} (hd : 0 ≤ d)
    (hl : ∀ x ∈ l, now + d ≤ x.1) (hstop : now + d ≤ stop) (s : S) :
    f.Same (f.replay (now + d) l stop (f.flow d s)) (f.replay now l stop s) := by
  have hflow {time : T} (htime : now + d ≤ time) :
      f.Same (f.flow (time - (now + d)) (f.flow d s)) (f.flow (time - now) s) := by
    have hsum : d + (time - (now + d)) = time - now := by abel
    have hadd := f.add s hd (sub_nonneg.mpr htime)
    rw [hsum] at hadd
    exact hadd
  cases l with
  | nil => exact hflow hstop
  | cons x l => exact replay_same (f.jump_congr (hflow (hl x List.mem_cons_self)))

/-- A run is what happens by its schedule. -/
theorem run_same_replay {l : List (Sample T E)} (h : Sample.Forward l) (now : T) (s : S) :
    f.Same (f.run l s) (f.replay now (Sample.schedule now l) (now + Sample.duration l) s) := by
  induction l generalizing now s with
  | nil =>
      have hzero : now + Sample.duration ([] : List (Sample T E)) - now = 0 :=
        add_sub_cancel_left ..
      change f.Same s (f.flow _ s)
      rw [hzero]
      exact (f.zero s).symm
  | cons x l ih =>
      have ih := ih h.tail
      cases x with
      | jump e =>
          refine (ih now (f.jump e s)).trans (replay_same (f.jump_congr ?_))
          rw [sub_self]
          exact (f.zero s).symm
      | wait d =>
          have hd : 0 ≤ d := h d List.mem_cons_self
          have hstop : now + d + Sample.duration l = now + Sample.duration (.wait d :: l) :=
            add_assoc ..
          refine (ih (now + d) (f.flow d s)).trans ?_
          rw [hstop]
          refine replay_flow hd (fun x hx ↦ Sample.le_of_mem_schedule h.tail hx) ?_ s
          rw [← hstop]
          exact le_add_of_nonneg_right (Sample.duration_nonneg h.tail)

/-- The samples in between do not matter. -/
theorem run_same {l l' : List (Sample T E)} (h : Sample.Forward l) (h' : Sample.Forward l')
    {now : T} (hschedule : Sample.schedule now l = Sample.schedule now l')
    (hduration : Sample.duration l = Sample.duration l') (hs : f.Same s t) :
    f.Same (f.run l s) (f.run l' t) := by
  have hrun := run_same_replay (f := f) h now s
  rw [hschedule, hduration] at hrun
  exact (hrun.trans (replay_same hs)).trans (run_same_replay h' now t).symm

end JumpFlow
