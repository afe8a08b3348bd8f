import Konative.Android.EntryPoint

/-!
# One owner for all Activities

Every Activity gets a `ComposeHostOwner` of its own, which should see that
Activity's lifecycle.  But the callbacks reach an owner through one variable, set by
whichever Activity was created last and cleared by whichever is destroyed first.

So the owners see their own Activities' events exactly when no Activity is created
while another is alive.  Android's usual order when one Activity starts another, in
which the new one is created and resumed before the old one is stopped and
destroyed, is not of that kind.
-/

namespace Konative.Android

namespace EntryPoint

/-- The lifecycle of the Activity `a` in a history. -/
def eventsOf (a : Nat) (w : List Event) : List LifecycleEvent :=
  w.filterMap fun e ↦
    match e with
    | .callback b c => if b = a then c.event else none
    | .vsync _ => none

/-- Every owner has handled its own Activity's events and no others, and an Activity
that is not destroyed has an owner that is not destroyed and is the one held. -/
structure OwnersExact (w : List Event) (s : EntryPoint) : Prop where
  received : ∀ a, s.received a = eventsOf a w
  held : ∀ a, (s.phase a).Alive → .onDestroy ∉ s.received a ∧ s.owner = some a

/-- No Activity is created while another is alive. -/
def OneAtATime (w : List Event) : Prop :=
  ∀ before b rest, w = before ++ .callback b .created :: rest →
    ∀ a, .callback a .created ∈ before → .callback a .destroyed ∈ before

theorem OneAtATime.of_append {w w' : List Event} (h : OneAtATime (w ++ w')) : OneAtATime w :=
  fun before b rest hw ↦ h before b (rest ++ w') (by rw [hw, List.append_assoc, List.cons_append])

/-! ## What a callback does to the owners -/

variable {bound : Bool} {s : EntryPoint}

theorem onCallback_created (bound : Bool) (a : Nat) (s : EntryPoint) :
    (onCallback bound a .created s).owner = some a ∧
      (onCallback bound a .created s).received = Function.update s.received a [.onCreate] := by
  simp [onCallback, onActivityCreated, handleLifecycleEvent]

/-- Every other callback goes to the owner held, whichever Activity it is for. -/
theorem onCallback_owned (bound : Bool) {a b : Nat} {c : Callback} (hc : c ≠ .created)
    (hs : s.owner = some b) :
    (onCallback bound a c s).owner = (if c = .destroyed then none else some b) ∧
      (onCallback bound a c s).received =
        Function.update s.received b (s.received b ++ c.event.toList) := by
  cases c <;>
    simp [onCallback, onActivityResumed, onActivityPaused, onActivityDestroyed,
      handleLifecycleEvent, hs, Callback.event] at hc ⊢

theorem eventsOf_callback (a b : Nat) (c : Callback) (w : List Event) :
    eventsOf a (w ++ [.callback b c]) =
      eventsOf a w ++ (if b = a then c.event.toList else []) := by
  by_cases h : b = a
  · cases c <;> simp [eventsOf, h, Callback.event]
  · simp [eventsOf, h]

theorem eventsOf_vsync (a : Nat) (t : Int) (w : List Event) :
    eventsOf a (w ++ [.vsync t]) = eventsOf a w := by simp [eventsOf]

theorem onDestroy_mem_eventsOf {a : Nat} {w : List Event} :
    .onDestroy ∈ eventsOf a w ↔ .callback a .destroyed ∈ w := by
  rw [eventsOf, List.mem_filterMap]
  constructor
  · rintro ⟨e, he, h⟩
    cases e with
    | vsync t => cases h
    | callback b c =>
        by_cases hb : b = a
        · subst hb
          cases c <;> simp [Callback.event] at h
          exact he
        · simp [hb] at h
  · exact fun h ↦ ⟨_, h, by simp [Callback.event]⟩

/-! ## Histories with one Activity at a time -/

/-- What one Activity at a time keeps: the owner held is that of the Activity that is
alive, and an Activity that does not exist yet has none. -/
private structure Owned (w : List Event) (s : EntryPoint) : Prop where
  received : ∀ a, s.received a = eventsOf a w
  alive : ∀ a, (s.phase a).Alive → s.owner = some a
  absent : ∀ a, s.phase a = .absent → s.received a = []

section Owned

variable {w : List Event} {b : Nat} {c : Callback} {p : Phase}

private theorem Owned.vsync (h : Owned w s) (bound : Bool) (t : Int) :
    Owned (w ++ [.vsync t]) (EntryPoint.vsync bound t s) := by
  obtain ⟨hp, ho, hr, -⟩ := vsync_frame bound t s
  refine ⟨fun a ↦ ?_, fun a ↦ ?_, fun a ↦ ?_⟩
  · rw [hr, eventsOf_vsync, h.received]
  · rw [hp, ho]
    exact h.alive a
  · rw [hp, hr]
    exact h.absent a

/-- Nobody was alive, so the one created is the only one. -/
private theorem Owned.created (h : Owned w s) (bound : Bool) (hb : s.phase b = .absent)
    (hp : p ≠ .absent) (hdead : ∀ a, ¬ (s.phase a).Alive) :
    Owned (w ++ [.callback b .created])
      (onCallback bound b .created { s with phase := Function.update s.phase b p }) := by
  obtain ⟨ho, hr⟩ := onCallback_created bound b { s with phase := Function.update s.phase b p }
  refine ⟨fun a ↦ ?_, fun a ha ↦ ?_, fun a ha ↦ ?_⟩
  · rw [hr, eventsOf_callback, ← h.received]
    by_cases hab : a = b
    · subst hab
      rw [Function.update_self, h.absent a hb, if_pos rfl]
      rfl
    · rw [Function.update_of_ne hab, if_neg (Ne.symm hab), List.append_nil]
  · rw [onCallback_phase] at ha
    by_cases hab : a = b
    · rw [ho, hab]
    · exact absurd ((Function.update_of_ne hab p s.phase) ▸ ha) (hdead a)
  · rw [onCallback_phase] at ha
    by_cases hab : a = b
    · subst hab
      exact absurd ((Function.update_self a p s.phase).symm.trans ha) hp
    · rw [hr, Function.update_of_ne hab]
      exact h.absent a ((Function.update_of_ne hab p s.phase).symm.trans ha)

/-- The one the callback is for is alive, so its owner is the one held. -/
private theorem Owned.callback (h : Owned w s) (bound : Bool) (hc : c ≠ .created)
    (hb : (s.phase b).Alive) (hp : p ≠ .absent) (hd : p = .destroyed ↔ c = .destroyed) :
    Owned (w ++ [.callback b c])
      (onCallback bound b c { s with phase := Function.update s.phase b p }) := by
  have hown := h.alive b hb
  obtain ⟨ho, hr⟩ := onCallback_owned bound (a := b) (c := c)
    (s := { s with phase := Function.update s.phase b p }) hc hown
  refine ⟨fun a ↦ ?_, fun a ha ↦ ?_, fun a ha ↦ ?_⟩
  · rw [hr, eventsOf_callback, ← h.received]
    by_cases hab : a = b
    · subst hab
      rw [Function.update_self, if_pos rfl]
    · rw [Function.update_of_ne hab, if_neg (Ne.symm hab), List.append_nil]
  · rw [onCallback_phase] at ha
    by_cases hab : a = b
    · subst hab
      have ha : p ≠ .absent ∧ p ≠ .destroyed := (Function.update_self a p s.phase) ▸ ha
      rw [ho, if_neg fun h ↦ ha.2 (hd.mpr h)]
    · have ha : (s.phase a).Alive := (Function.update_of_ne hab p s.phase) ▸ ha
      exact absurd (Option.some.inj ((h.alive a ha).symm.trans hown)) hab
  · rw [onCallback_phase] at ha
    by_cases hab : a = b
    · subst hab
      exact absurd ((Function.update_self a p s.phase).symm.trans ha) hp
    · rw [hr, Function.update_of_ne hab]
      exact h.absent a ((Function.update_of_ne hab p s.phase).symm.trans ha)

private theorem owned_of_oneAtATime (h : (system bound).Run initial w s) (hw : OneAtATime w) :
    Owned w s := by
  refine h.history (P := fun w s ↦ OneAtATime w → Owned w s) ?_ ?_ hw
  · exact fun _ ↦ ⟨fun _ ↦ rfl, fun a h ↦ absurd rfl h.1, fun _ _ ↦ rfl⟩
  · intro w t e t' hrun ih hstep hw
    have ho := ih hw.of_append
    cases e with
    | vsync time =>
        obtain rfl := Option.some.inj hstep
        exact ho.vsync bound time
    | callback b c =>
        obtain ⟨p, hp, rfl⟩ := Option.map_eq_some_iff.mp hstep
        obtain ⟨hne, hnd, hc, hd, -, -⟩ := Phase.after_eq_some hp
        by_cases hcc : c = .created
        · subst hcc
          refine ho.created bound (hc.mpr rfl) hne fun a ha ↦ ?_
          have hph := phase_history hrun a
          exact ha.2 (hph.2.mpr (hw w b [] rfl a (hph.1.mp ha.1)))
        · exact ho.callback bound hcc ⟨fun h ↦ hcc (hc.mp h), hnd⟩ hne hd

end Owned

/-- Along a history the owners are exact throughout if and only if no Activity is
created while another is alive. -/
theorem ownersExact_iff (bound : Bool) (w : List Event) (s : EntryPoint)
    (h : (system bound).Run initial w s) :
    (∀ w₁ w₂ s₁, w = w₁ ++ w₂ → (system bound).Run initial w₁ s₁ → OwnersExact w₁ s₁) ↔
      OneAtATime w := by
  constructor
  · rintro hexact before b rest rfl a ha
    by_contra hnd
    rw [List.append_cons] at h hexact
    obtain ⟨s₂, h₂, -⟩ := h.split
    obtain ⟨s₁, h₁, hstep⟩ := h₂.split
    have hstep : next bound s₁ (.callback b .created) = some s₂ := by
      cases hstep with
      | cons hs hn => cases hn; exact hs
    obtain ⟨p, hp, rfl⟩ := Option.map_eq_some_iff.mp hstep
    have hph := phase_history h₂ a
    have halive : ((onCallback bound b .created
        { s₁ with phase := Function.update s₁.phase b p }).phase a).Alive :=
      ⟨hph.1.mpr (List.mem_append_left _ ha), fun hd ↦ by
        rcases List.mem_append.mp (hph.2.mp hd) with hd | hd
        · exact hnd hd
        · simp at hd⟩
    have hown := ((hexact _ _ _ rfl h₂).held a halive).2
    rw [(onCallback_created bound b _).1] at hown
    obtain rfl := Option.some.inj hown
    -- an Activity is created once
    exact (phase_history h₁ b).1.mpr ha ((Phase.after_eq_some hp).2.2.1.mpr rfl)
  · rintro hw w₁ w₂ s₁ rfl h₁
    have ho := owned_of_oneAtATime h₁ hw.of_append
    refine ⟨ho.received, fun a ha ↦ ⟨fun hd ↦ ha.2 ?_, ho.alive a ha⟩⟩
    rw [ho.received, onDestroy_mem_eventsOf] at hd
    exact (phase_history h₁ a).2.mpr hd

/-- One Activity after another, as on a rotation. -/
theorem ownersExact_rotation : ∃ s, OwnersExact
    [.callback 0 .created, .callback 0 .destroyed, .callback 1 .created] s := by
  have h : (system true).Run initial
      [.callback 0 .created, .callback 0 .destroyed, .callback 1 .created] _ :=
    run_of_after rfl
  refine ⟨_, (ownersExact_iff true _ _ h).mpr ?_ _ [] _ (List.append_nil _).symm h⟩
  intro before b rest hw a ha
  rcases before with _ | ⟨x, _ | ⟨y, _ | ⟨z, before⟩⟩⟩
  · cases ha
  · simp at hw
  · simp only [List.cons_append, List.nil_append, List.cons.injEq] at hw
    obtain ⟨rfl, rfl, -⟩ := hw
    simpa using ha
  · simp at hw

/-- One Activity starts another: the second is created and resumed before the first is
stopped and destroyed. -/
def startAnother : List Event :=
  [.callback 0 .created, .callback 0 .started, .callback 0 .resumed, .callback 0 .paused,
    .callback 1 .created, .callback 1 .started, .callback 1 .resumed, .callback 0 .stopped,
    .callback 0 .destroyed]

/-- The second Activity's owner is told that it was destroyed, and dropped, though the
Activity is in the foreground. -/
theorem startAnother_not_exact : ∃ s, (system true).Run initial startAnother s ∧
    s.phase 1 = .resumed ∧
    s.received 1 = [.onCreate, .onStart, .onResume, .onStop, .onDestroy] ∧ s.owner = none ∧
    ¬ OwnersExact startAnother s := by
  obtain ⟨s, hs⟩ : ∃ s, after true startAnother initial = some s := ⟨_, rfl⟩
  have hp : (after true startAnother initial).map (phase · 1) = some .resumed := rfl
  have hr : (after true startAnother initial).map (received · 1) =
      some [.onCreate, .onStart, .onResume, .onStop, .onDestroy] := rfl
  have ho : (after true startAnother initial).map owner = some none := rfl
  rw [hs] at hp hr ho
  have hr := Option.some.inj hr
  refine ⟨s, run_of_after hs, Option.some.inj hp, hr, Option.some.inj ho, fun hexact ↦ ?_⟩
  have hrec := (hexact.received 1).symm.trans hr
  exact absurd hrec (by decide)

end EntryPoint

end Konative.Android
