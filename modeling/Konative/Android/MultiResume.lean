import Konative.Android.FrameTicker
import Konative.Android.NativeStream

/-!
# Ticking while an Activity is resumed

The ticker is to run while, and only while, an Activity is resumed.  It has one flag,
which the callbacks of every Activity set and clear: `onActivityPaused` stops the
ticker whoever else is resumed.  With several Activities resumed at once, as Android
10 allows, the ticker therefore stops at the first of them that is paused, and it
does what it should exactly as long as that does not happen.
-/

namespace Konative.Android.EntryPoint

variable {bound : Bool} {s s' : EntryPoint} {w : List Event} {e : Event}

/-- The ticker is active while, and only while, some Activity is resumed. -/
def TicksWhileResumed (s : EntryPoint) : Prop :=
  s.ticker.active = true ↔ ∃ a, s.phase a = .resumed

/-- No Activity is paused while another one is resumed. -/
def NoPauseUnderResumed (w : List Event) : Prop :=
  ∀ before a rest, w = before ++ .callback a .paused :: rest → ∀ b, b ≠ a → ¬ Resumed b before

theorem NoPauseUnderResumed.of_append {w' : List Event} (h : NoPauseUnderResumed (w ++ w')) :
    NoPauseUnderResumed w := fun before a rest hw ↦ h before a (rest ++ w') (by
  rw [hw, List.append_assoc, List.cons_append])

theorem noPauseUnderResumed_snoc :
    NoPauseUnderResumed (w ++ [e]) ↔
      NoPauseUnderResumed w ∧ ∀ a, e = .callback a .paused → ∀ b, b ≠ a → ¬ Resumed b w := by
  refine ⟨fun h ↦ ⟨h.of_append, fun a he ↦ h w a [] (by rw [he])⟩, ?_⟩
  rintro ⟨hw, he⟩ before a rest h
  rcases Lts.cut_snoc h with ⟨rfl, rfl⟩ | ⟨rest, rfl, -⟩
  · exact he a rfl
  · exact hw before a rest rfl

theorem noPauseUnderResumed_nil : NoPauseUnderResumed [] := by
  intro before a rest h
  simp at h

/-- A vsync leaves the ticker active or not. -/
theorem vsync_active (bound : Bool) (t : Int) (s : EntryPoint) :
    (vsync bound t s).ticker.active = s.ticker.active := by
  have hframes : ∀ n (t' : FrameTicker), (t'.frames t n).1.active = t'.active := by
    intro n
    induction n with
    | zero => exact fun _ ↦ rfl
    | succ n ih =>
        intro t'
        refine (ih _).trans ?_
        unfold FrameTicker.doFrame
        split
        · rename_i ha
          exact ha.symm
        · rfl
  rw [(vsync_ticker bound t s).1]
  exact hframes _ _

/-- A step keeps the ticker in time with the Activities, unless it pauses one while
another is resumed. -/
theorem TicksWhileResumed.step (hs : TicksWhileResumed s) (h : next bound s e = some s')
    (he : ∀ a, e = .callback a .paused → ∀ b, b ≠ a → s.phase b ≠ .resumed) :
    TicksWhileResumed s' := by
  cases e with
  | vsync t =>
      obtain rfl := Option.some.inj h
      rw [TicksWhileResumed, vsync_active, (vsync_frame bound t s).1]
      exact hs
  | callback a c =>
      obtain ⟨p, hp, rfl⟩ := Option.map_eq_some_iff.mp h
      have hph := Phase.after_eq_some hp
      rw [TicksWhileResumed, onCallback_phase, onCallback_ticker]
      cases c with
      | resumed =>
          refine iff_of_true (FrameTicker.start_active _) ⟨a, ?_⟩
          exact (Function.update_self ..).trans (hph.2.2.2.2.2.mpr (.inl rfl))
      | paused =>
          refine iff_of_false Bool.false_ne_true ?_
          rintro ⟨b, hb⟩
          by_cases hba : b = a
          · subst hba
            have hp := (Function.update_self b p s.phase).symm.trans hb
            rcases hph.2.2.2.2.2.mp hp with h | ⟨-, h⟩ <;> cases h
          · exact he a rfl b hba ((Function.update_of_ne hba p s.phase).symm.trans hb)
      | created | started | stopped | saveInstanceState | destroyed =>
          refine hs.trans (exists_congr fun b ↦ ?_)
          exact (resumed_update hp nofun nofun b).symm

/-- Along a history the ticker is active while, and only while, an Activity is resumed,
if and only if no Activity is paused while another one is resumed. -/
theorem ticksWhileResumed_iff (bound : Bool) (w : List Event) (s : EntryPoint)
    (h : (system bound).Run initial w s) :
    (∀ w₁ w₂ s₁, w = w₁ ++ w₂ → (system bound).Run initial w₁ s₁ → TicksWhileResumed s₁) ↔
      NoPauseUnderResumed w := by
  constructor
  · rintro hticks before a rest rfl b hba hb
    rw [List.append_cons] at h hticks
    obtain ⟨s₂, h₂, -⟩ := h.split
    have hb : s₂.phase b = .resumed := by
      rw [phase_resumed_iff h₂, resumed_snoc]
      exact .inr ⟨hb, by simp [Ne.symm hba]⟩
    have hactive := (hticks _ _ _ rfl h₂).mpr ⟨b, hb⟩
    obtain ⟨s₁, -, hstep⟩ := h₂.split
    cases hstep with
    | cons hstep hn =>
        cases hn
        obtain ⟨p, -, rfl⟩ := Option.map_eq_some_iff.mp hstep
        rw [onCallback_ticker] at hactive
        exact Bool.false_ne_true hactive
  · rintro hw w₁ w₂ s₁ rfl h₁
    have hw := hw.of_append
    clear h
    refine h₁.history (P := fun w t ↦ NoPauseUnderResumed w → TicksWhileResumed t) ?_ ?_ hw
    · intro _
      exact iff_of_false Bool.false_ne_true fun ⟨_, ha⟩ ↦ nomatch ha
    · intro v t e t' hrun ih hstep hv
      refine (ih hv.of_append).step hstep ?_
      rintro a rfl b hba hb
      exact hv v a [] rfl b hba ((phase_resumed_iff hrun b).mp hb)

/-- Two Activities take turns in the foreground. -/
theorem ticksWhileResumed_secondScreen : ∃ s, (system true).Run initial secondScreen s ∧
    s.phase 0 = .stopped ∧ s.phase 1 = .resumed ∧ s.ticker.active = true ∧
    TicksWhileResumed s := by
  obtain ⟨s, hs⟩ : ∃ s, after true secondScreen initial = some s := ⟨_, rfl⟩
  have hp : (after true secondScreen initial).map (phase · 0) = some .stopped := rfl
  have hp' : (after true secondScreen initial).map (phase · 1) = some .resumed := rfl
  have ht : (after true secondScreen initial).map (·.ticker.active) = some true := rfl
  rw [hs] at hp hp' ht
  have h := run_of_after hs
  refine ⟨s, h, Option.some.inj hp, Option.some.inj hp', Option.some.inj ht,
    (ticksWhileResumed_iff true _ _ h).mpr ?_ _ [] _ (List.append_nil _).symm h⟩
  have hsnoc : secondScreen = [] ++ [.callback 0 .created] ++ [.callback 0 .started] ++
      [.callback 0 .resumed] ++ [.vsync 16] ++ [.callback 0 .paused] ++ [.callback 1 .created] ++
      [.callback 1 .started] ++ [.callback 1 .resumed] ++ [.callback 0 .stopped] ++ [.vsync 33] :=
    rfl
  rw [hsnoc]
  simp only [noPauseUnderResumed_snoc, noPauseUnderResumed_nil, resumed_snoc, not_resumed_nil]
  simp
  exact fun b hb h ↦ hb h.symm

/-- Two Activities side by side, and the first of them is paused. -/
def sideBySide : List Event :=
  [.callback 0 .created, .callback 0 .started, .callback 0 .resumed, .callback 1 .created,
    .callback 1 .started, .callback 1 .resumed, .callback 0 .paused]

/-- The ticker has stopped though the second Activity is resumed. -/
theorem sideBySide_stops : ∃ s, (system true).Run initial sideBySide s ∧
    s.phase 1 = .resumed ∧ s.ticker.active = false ∧ ¬ TicksWhileResumed s := by
  obtain ⟨s, hs⟩ : ∃ s, after true sideBySide initial = some s := ⟨_, rfl⟩
  have hp : (after true sideBySide initial).map (phase · 1) = some .resumed := rfl
  have ht : (after true sideBySide initial).map (·.ticker.active) = some false := rfl
  rw [hs] at hp ht
  have hp := Option.some.inj hp
  have ht := Option.some.inj ht
  refine ⟨s, run_of_after hs, hp, ht, fun h ↦ ?_⟩
  exact Bool.false_ne_true (ht.symm.trans (h.mpr ⟨1, hp⟩))

end Konative.Android.EntryPoint
