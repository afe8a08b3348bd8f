import Mathlib.Logic.Basic

/-!
# Programs over an environment

A program is a tree: it returns, or it makes a call and goes on with the answer.  A
handler says how the environment carries a call out, given its behaviour at that
point, so a run is a program against a sequence of behaviours.

`wp` is the weakest precondition over all sequences of behaviours (`wp.run`), and a
`Triple` a precondition that entails it.  Triples compose along the program, and
`Triple.of_preserved` gives the one of what every call preserves.
-/

namespace Konative

universe u v w

/-- A program that makes calls in `C` and awaits answers in `A`. -/
inductive Prog {C : Type u} (A : C → Type v) (α : Type w)
  | ret (a : α)
  | call (c : C) (k : A c → Prog A α)

/-- How an environment whose behaviours are in `R` carries a call out. -/
abbrev Handler {C : Type u} (A : C → Type v) (R S : Type*) := S → (c : C) → R → A c × S

namespace Prog

variable {C : Type u} {A : C → Type v} {α β : Type w}

/-- Run a program, then the program its result selects. -/
def bind : Prog A α → (α → Prog A β) → Prog A β
  | .ret a, f => f a
  | .call c k, f => .call c fun x ↦ (k x).bind f

instance : Monad (Prog A) where
  pure := .ret
  bind := Prog.bind

variable {R S : Type*}

/-- Run a program against the behaviours of the environment, call by call. -/
def run (H : Handler A R S) : Prog A α → (Nat → R) → S → α × S
  | .ret a, _, s => (a, s)
  | .call c k, σ, s => run H (k (H s c (σ 0)).1) (fun n ↦ σ (n + 1)) (H s c (σ 0)).2

/-- However the environment behaves from `s` on, the program ends with `Q`. -/
def wp (H : Handler A R S) : Prog A α → (α → S → Prop) → S → Prop
  | .ret a, Q, s => Q a s
  | .call c k, Q, s => ∀ x, wp H (k (H s c x).1) Q (H s c x).2

/-- The program, killed after `n` calls.  A result it had not returned by then is lost. -/
def cut : Nat → Prog A α → Prog A (Option α)
  | 0, _ => .ret none
  | _ + 1, .ret a => .ret (some a)
  | n + 1, .call c k => .call c fun x ↦ (k x).cut n

variable {H : Handler A R S} {Q Q' : α → S → Prop} {s : S}

@[simp] theorem wp_pure (a : α) : wp H (pure a) Q s ↔ Q a s := .rfl

/-- The weakest precondition of a composite is computed from the back. -/
@[simp] theorem wp_bind (p : Prog A α) (f : α → Prog A β) {Q : β → S → Prop} :
    wp H (p >>= f) Q s ↔ wp H p (fun a s ↦ wp H (f a) Q s) s := by
  change wp H (p.bind f) Q s ↔ _
  induction p generalizing s with
  | ret a => exact .rfl
  | call c k ih => exact forall_congr' fun x ↦ ih _

theorem wp.mono {p : Prog A α} (h : wp H p Q s) (hQ : ∀ a s, Q a s → Q' a s) : wp H p Q' s := by
  induction p generalizing s with
  | ret a => exact hQ a s h
  | call c k ih => exact fun x ↦ ih _ (h x)

/-- The postcondition holds at the end of every run. -/
theorem wp.run {p : Prog A α} (h : wp H p Q s) (σ : Nat → R) :
    Q (p.run H σ s).1 (p.run H σ s).2 := by
  induction p generalizing s σ with
  | ret a => exact h
  | call c k ih => exact ih _ (h (σ 0)) _

/-- A result that is passed through a function at the end. -/
theorem run_bind_pure (p : Prog A α) (f : α → β) (σ : Nat → R) (s : S) :
    (p >>= fun a ↦ pure (f a)).run H σ s = (f (p.run H σ s).1, (p.run H σ s).2) := by
  induction p generalizing σ s with
  | ret a => rfl
  | call c k ih => exact ih _ _ _

/-! ## Scripts

Where the postcondition is about one sequence of behaviours, the sequence goes into the
state. -/

/-- The handler whose behaviours are in the state, one for each call. -/
def scripted (H : Handler A R S) : Handler A Unit ((Nat → R) × S) := fun s c _ ↦
  ((H s.2 c (s.1 0)).1, fun n ↦ s.1 (n + 1), (H s.2 c (s.1 0)).2)

/-- What holds at the end of a scripted run holds at the end of the run against the
script. -/
theorem wp.run_scripted {p : Prog A α} {σ : Nat → R}
    (h : wp (scripted H) p (fun a s ↦ Q a s.2) (σ, s)) : Q (p.run H σ s).1 (p.run H σ s).2 := by
  induction p generalizing s σ with
  | ret a => exact h
  | call c k ih => exact ih _ (h ())

/-! ## Triples -/

/-- From a state with `P`, however the environment behaves, `p` ends with `Q`. -/
def Triple (H : Handler A R S) (P : S → Prop) (p : Prog A α) (Q : α → S → Prop) : Prop :=
  ∀ s, P s → wp H p Q s

variable {P P' : S → Prop} {p : Prog A α} {f : α → Prog A β} {Q₂ : β → S → Prop}

namespace Triple

theorem pure {a : α} (h : ∀ s, P s → Q a s) : Triple H P (pure a) Q := h

theorem bind (hp : Triple H P p Q) (hf : ∀ a, Triple H (Q a) (f a) Q₂) :
    Triple H P (p >>= f) Q₂ :=
  fun s hs ↦ (wp_bind p f).mpr ((hp s hs).mono fun a s ↦ hf a s)

theorem pre (h : Triple H P p Q) (hP : ∀ s, P' s → P s) : Triple H P' p Q :=
  fun s hs ↦ h s (hP s hs)

theorem post (h : Triple H P p Q) (hQ : ∀ a s, Q a s → Q' a s) : Triple H P p Q' :=
  fun s hs ↦ (h s hs).mono hQ

theorem ite {c : Prop} [Decidable c] {p' : Prog A α} (h : c → Triple H P p Q)
    (h' : ¬ c → Triple H P p' Q) : Triple H P (if c then p else p') Q := by
  split
  · exact h ‹_›
  · exact h' ‹_›

theorem trivial (p : Prog A α) : Triple H P p fun _ _ ↦ True := by
  induction p generalizing P with
  | ret a => exact fun _ _ ↦ .intro
  | call c k ih => exact fun s hs x ↦ ih _ (P := fun _ ↦ True) _ .intro

/-- What every call preserves, every program does. -/
theorem of_preserved {I : S → Prop} (hI : ∀ s c x, I s → I (H s c x).2) (p : Prog A α) :
    Triple H I p fun _ ↦ I := by
  induction p with
  | ret a => exact fun _ hs ↦ hs
  | call c k ih => exact fun s hs x ↦ ih _ _ (hI s c x hs)

end Triple

end Prog

end Konative
