import Konative.Events.NextEventAwaiter

/-!
# The awaiters on a dispatcher

The constructor of `NextEventAwaiter` connects the object to the sink of its event.  Nothing
disconnects it: the class has no destructor of its own, and the sink keeps the address.  So the
connected awaiters are those that were ever constructed, which are those alive exactly as long
as none is destroyed.

The dispatcher is not part of the repository.  How a sink connects a listener is a parameter,
and what is relied on is that the listener is then connected and the others stay as they are; a
trigger calls all of them.
-/

namespace Konative.Events

universe u v w

variable {α : Type w} {ι : Type u} {E : Type v}

/-- The awaiters of one dispatcher, by their addresses. -/
structure Bus (α : Type w) (ι : Type u) (E : Type v) where
  /-- The awaiters that are alive. -/
  awaiters : α → Option (NextEventAwaiter ι E)
  /-- The listeners of the sink. -/
  connected : List α
  /-- The addresses on which the last step called `on_event`. -/
  invoked : List α

/-- How a sink connects a listener. -/
abbrev Connect (α : Type w) := List α → α → List α

/-- The listener is connected, and the others are as they were. -/
def Connect.Lawful (connect : Connect α) : Prop :=
  ∀ l a b, b ∈ connect l a ↔ b = a ∨ b ∈ l

namespace Bus

/-- What happens to awaiters. -/
inductive Label (α : Type w) (E : Type v)
  /-- An awaiter is constructed at `a`, where `Event{}` is `value`. -/
  | construct (a : α) (value : E)
  /-- The awaiter at `a` is destroyed. -/
  | destroy (a : α)
  /-- `dispatcher.trigger(event)`. -/
  | trigger (event : E)
deriving DecidableEq, Repr

/-- A dispatcher without awaiters. -/
def start : Bus α ι E := ⟨fun _ ↦ none, [], []⟩

variable [DecidableEq α]

/-- `on_event(event)` on every connected awaiter that is alive. -/
def publish (s : Bus α ι E) (event : E) : α → Option (NextEventAwaiter ι E) := fun a ↦
  if a ∈ s.connected then (s.awaiters a).map fun x ↦ (x.onEvent event).1 else s.awaiters a

/-- One step; nothing where an awaiter is constructed over another one or destroyed twice. -/
def step (connect : Connect α) (s : Bus α ι E) : Label α E → Option (Bus α ι E)
  | .construct a value =>
      if (s.awaiters a).isNone then
        some ⟨Function.update s.awaiters a (some ⟨.unset [], value⟩), connect s.connected a, []⟩
      else none
  | .destroy a =>
      if (s.awaiters a).isSome then
        some ⟨Function.update s.awaiters a none, s.connected, []⟩
      else none
  | .trigger event => some ⟨s.publish event, s.connected, s.connected⟩

def system (connect : Connect α) : Lts (Bus α ι E) (Label α E) where
  init s := s = start
  step s ℓ s' := s.step connect ℓ = some s'

/-- The connected awaiters are those that are alive. -/
def Exact (s : Bus α ι E) : Prop := ∀ a, a ∈ s.connected ↔ (s.awaiters a).isSome

/-- In every state of the run `w` they are, and every step calls `on_event` on awaiters that
are alive. -/
structure ExactAlong (ι : Type u) (connect : Connect α) (w : List (Label α E)) : Prop where
  exact : ∀ w₁ w₂ (s : Bus α ι E), w = w₁ ++ w₂ → (system connect).Run start w₁ s → s.Exact
  alive : ∀ w₁ ℓ w₂ (s s' : Bus α ι E), w = w₁ ++ ℓ :: w₂ → (system connect).Run start w₁ s →
    s.step connect ℓ = some s' → ∀ a ∈ s'.invoked, (s.awaiters a).isSome

/-- What a step does. -/
inductive Effect (connect : Connect α) (s : Bus α ι E) : Label α E → Bus α ι E → Prop
  | construct {a value} (ha : s.awaiters a = none) :
      Effect connect s (.construct a value)
        ⟨Function.update s.awaiters a (some ⟨.unset [], value⟩), connect s.connected a, []⟩
  | destroy {a} (ha : (s.awaiters a).isSome) :
      Effect connect s (.destroy a) ⟨Function.update s.awaiters a none, s.connected, []⟩
  | trigger {event} :
      Effect connect s (.trigger event) ⟨s.publish event, s.connected, s.connected⟩

section Run

variable {connect : Connect α} {s s' : Bus α ι E} {ℓ : Label α E} {w : List (Label α E)} {a : α}

theorem effect_of_step (h : s.step connect ℓ = some s') : Effect connect s ℓ s' := by
  cases ℓ with
  | construct a value =>
      simp only [step] at h
      split at h
      · cases h
        exact .construct (Option.isNone_iff_eq_none.mp ‹_›)
      · cases h
  | destroy a =>
      simp only [step] at h
      split at h
      · cases h
        exact .destroy ‹_›
      · cases h
  | trigger event =>
      cases h
      exact .trigger

theorem isSome_publish (s : Bus α ι E) (event : E) (a : α) :
    (s.publish event a).isSome = (s.awaiters a).isSome := by
  rw [publish]
  split
  · exact Option.isSome_map ..
  · rfl

theorem Exact.effect (hc : connect.Lawful) (hs : s.Exact) (h : Effect connect s ℓ s')
    (hℓ : ∀ a, ℓ ≠ .destroy a) : s'.Exact := by
  cases h with
  | @construct a value ha =>
      intro b
      show b ∈ connect s.connected a ↔ (Function.update s.awaiters a _ b).isSome
      rw [hc, hs b]
      by_cases hb : b = a
      · subst hb
        rw [Function.update_self]
        simp
      · rw [Function.update_of_ne hb]
        exact or_iff_right hb
  | @destroy a ha => exact absurd rfl (hℓ a)
  | @trigger event =>
      intro b
      show b ∈ s.connected ↔ (s.publish event b).isSome
      rw [isSome_publish, hs b]

/-- Every address on which an awaiter was ever constructed is connected, and no other. -/
theorem mem_connected_iff (hc : connect.Lawful) (h : (system connect).Run start w s) :
    a ∈ s.connected ↔ ∃ value, .construct a value ∈ w := by
  refine h.history (P := fun w s ↦ a ∈ s.connected ↔ ∃ value, .construct a value ∈ w) ?_ ?_
  · simp [start]
  · intro w s ℓ s' _ hP hstep
    cases effect_of_step hstep with
    | @construct b value ha =>
        rw [hc, hP]
        simp only [List.mem_append, List.mem_singleton, exists_or, Label.construct.injEq]
        constructor
        · rintro (rfl | h)
          · exact .inr ⟨value, rfl, rfl⟩
          · exact .inl h
        · rintro (h | ⟨_, rfl, -⟩)
          · exact .inr h
          · exact .inl rfl
    | destroy => simp [hP]
    | trigger => simp [hP]

theorem exact_of_run (hc : connect.Lawful) (h : (system connect).Run start w s)
    (hw : ∀ a, .destroy a ∉ w) : s.Exact := by
  refine h.history (P := fun w s ↦ (∀ a, .destroy a ∉ w) → s.Exact) ?_ ?_ hw
  · intro _ a
    simp [start]
  · intro w s ℓ s' _ hP hstep hw
    have hs : s.Exact := hP fun a ha ↦ hw a (List.mem_append_left _ ha)
    refine hs.effect hc (effect_of_step hstep) ?_
    rintro a rfl
    exact hw a (List.mem_append_right _ List.mem_cons_self)

/-- The connected awaiters are those alive along a run if and only if the run destroys none. -/
theorem exactAlong_iff (hc : connect.Lawful) {s : Bus α ι E}
    (h : (system connect).Run start w s) : ExactAlong ι connect w ↔ ∀ a, .destroy a ∉ w := by
  constructor
  · intro hex a ha
    obtain ⟨w₁, w₂, rfl⟩ := List.append_of_mem ha
    obtain ⟨s₁, hrun, hrest⟩ := h.split
    cases hrest with
    | @cons _ s₂ _ _ _ hstep _ =>
        have hbefore : s₁.Exact := hex.exact w₁ _ s₁ rfl hrun
        have hafter : s₂.Exact :=
          hex.exact (w₁ ++ [.destroy a]) w₂ s₂ (by simp) (hrun.snoc hstep)
        -- the sink still has the address, but nothing is there
        cases effect_of_step hstep with
        | destroy halive =>
            have hgone : (Function.update s₁.awaiters a none a).isSome :=
              (hafter a).mp ((hbefore a).mpr halive)
            rw [Function.update_self] at hgone
            cases hgone
  · intro hw
    constructor
    · rintro w₁ w₂ s rfl hrun
      exact exact_of_run hc hrun fun a ha ↦ hw a (List.mem_append_left _ ha)
    · rintro w₁ ℓ w₂ s s' rfl hrun hstep a ha
      have hs : s.Exact := exact_of_run hc hrun fun a ha ↦ hw a (List.mem_append_left _ ha)
      cases effect_of_step hstep with
      | construct => cases ha
      | destroy => cases ha
      | trigger => exact (hs a).mp ha

end Run

/-- `entt::sink::connect`: an earlier connection of the listener is given up first. -/
def entt : Connect α := fun l a ↦ l.filter (· ≠ a) ++ [a]

theorem lawful_entt : (entt : Connect α).Lawful := by
  intro l a b
  rw [entt, List.mem_append, List.mem_filter, List.mem_singleton, decide_eq_true_eq]
  constructor
  · rintro (⟨hl, -⟩ | rfl)
    · exact .inr hl
    · exact .inl rfl
  · rintro (rfl | hl)
    · exact .inr rfl
    · by_cases hb : b = a
      · exact .inr hb
      · exact .inl ⟨hl, hb⟩

/-- Two awaiters that stay. -/
theorem exactAlong_two :
    ExactAlong Nat entt ([.construct 0 0, .construct 1 0, .trigger 1] : List (Label Nat Nat)) := by
  have hrun : (system entt).Run start
      ([.construct 0 0, .construct 1 0, .trigger 1] : List (Label Nat Nat)) (_ : Bus Nat Nat Nat) :=
    .cons rfl (.cons rfl (.cons rfl (.nil _)))
  exact (exactAlong_iff lawful_entt hrun).mpr (by simp)

/-- A trigger after an awaiter was destroyed calls `on_event` where it was. -/
theorem not_exactAlong_destroy :
    (∃ s : Bus Nat Nat Nat, (system entt).Run start [.construct 0 0, .destroy 0, .trigger 1] s ∧
      s.invoked = [0] ∧ s.awaiters 0 = none) ∧
    ¬ExactAlong Nat entt ([.construct 0 0, .destroy 0, .trigger 1] : List (Label Nat Nat)) := by
  constructor
  · exact ⟨_, .cons rfl (.cons rfl (.cons rfl (.nil _))), rfl, rfl⟩
  · intro h
    have halive := h.alive [.construct 0 0, .destroy 0] (.trigger 1) [] _ _ rfl
      (.cons rfl (.cons rfl (.nil _))) rfl 0 List.mem_cons_self
    cases halive

end Bus

end Konative.Events
