import Konative.Android.EntryPoint
import Mathlib.Data.List.Induction

/-!
# What the native Application is told

An `Application` expects to be started once, then resumed and paused any number of
times with ticks in between, and destroyed once.  `SessionPrefix` is that grammar,
and `Stage` the automaton that recognises it.

The callbacks object keeps STARTED to one a process, but it sends RESUMED, PAUSED
and DESTROYED for whichever Activity they happen to.  The stream is therefore in
the grammar exactly as long as no Activity is resumed or destroyed while another is
in the foreground or after one has been destroyed: after a rotation it is not.
-/

namespace Konative.Android

/-! ## The grammar -/

/-- RESUME TICK* PAUSE. -/
def cycle (ticks : List Int) : List NativeCall := .resume :: ticks.map .tick ++ [.pause]

/-- START (RESUME TICK* PAUSE)* DESTROY. -/
def session (cycles : List (List Int)) : List NativeCall :=
  .start :: cycles.flatMap cycle ++ [.destroy]

/-- A prefix of a session. -/
def SessionPrefix (calls : List NativeCall) : Prop := ∃ cycles, calls <+: session cycles

/-- Where in a session the Application is. -/
inductive Stage
  | fresh
  | background
  | foreground
  | ended
deriving DecidableEq, Repr

namespace Stage

/-- The stage after a call the session allows. -/
def after : Stage → NativeCall → Option Stage
  | .fresh, .start => some .background
  | .background, .resume => some .foreground
  | .background, .destroy => some .ended
  | .foreground, .tick _ => some .foreground
  | .foreground, .pause => some .background
  | _, _ => none

/-- The stage after a sequence of calls. -/
def afterAll : Stage → List NativeCall → Option Stage
  | st, [] => some st
  | st, c :: cs => (st.after c).bind fun st ↦ st.afterAll cs

theorem afterAll_append (st : Stage) (cs cs' : List NativeCall) :
    st.afterAll (cs ++ cs') = (st.afterAll cs).bind fun st ↦ st.afterAll cs' := by
  induction cs generalizing st with
  | nil => rfl
  | cons c cs ih =>
      simp only [List.cons_append, afterAll, Option.bind_assoc]
      exact Option.bind_congr fun st _ ↦ ih st

theorem afterAll_ticks (ticks : List Int) :
    foreground.afterAll (ticks.map .tick) = some .foreground := by
  induction ticks with
  | nil => rfl
  | cons _ _ ih => exact ih

theorem afterAll_cycles (cycles : List (List Int)) :
    background.afterAll (cycles.flatMap cycle) = some .background := by
  induction cycles with
  | nil => rfl
  | cons ticks cycles ih =>
      have hc : background.afterAll (cycle ticks) = some .background := by
        change foreground.afterAll (ticks.map .tick ++ [.pause]) = some .background
        rw [afterAll_append, afterAll_ticks]
        rfl
      rw [List.flatMap_cons, afterAll_append, hc]
      exact ih

/-- The calls that lead to each stage. -/
theorem calls_of_afterAll {calls : List NativeCall} :
    ∀ {st : Stage}, fresh.afterAll calls = some st →
      match st with
      | .fresh => calls = []
      | .background => ∃ cycles : List (List Int), calls = .start :: cycles.flatMap cycle
      | .foreground => ∃ (cycles : List (List Int)) (ticks : List Int),
          calls = .start :: cycles.flatMap cycle ++ .resume :: ticks.map .tick
      | .ended => ∃ cycles, calls = session cycles := by
  induction calls using List.reverseRecOn with
  | nil =>
      intro st h
      obtain rfl := Option.some.inj h
      rfl
  | append_singleton calls c ih =>
      intro st h
      rw [afterAll_append] at h
      obtain ⟨st₀, h₀, h⟩ := Option.bind_eq_some_iff.mp h
      have hstep : st₀.after c = some st := by simpa [afterAll] using h
      have ih := ih h₀
      cases st₀ with
      | fresh =>
          cases c <;> cases hstep
          rw [ih]
          exact ⟨[], rfl⟩
      | background =>
          obtain ⟨cycles, rfl⟩ := ih
          cases c <;> cases hstep
          · exact ⟨cycles, [], rfl⟩
          · exact ⟨cycles, rfl⟩
      | foreground =>
          obtain ⟨cycles, ticks, rfl⟩ := ih
          cases c with
          | pause =>
              cases hstep
              exact ⟨cycles ++ [ticks], by simp [cycle]⟩
          | tick d =>
              cases hstep
              exact ⟨cycles, ticks ++ [d], by simp⟩
          | start | resume | destroy => cases hstep
      | ended => cases c <;> cases hstep

end Stage

/-- The automaton recognises the prefixes of sessions. -/
theorem sessionPrefix_iff {calls : List NativeCall} :
    SessionPrefix calls ↔ ∃ st, Stage.fresh.afterAll calls = some st := by
  constructor
  · rintro ⟨cycles, rest, h⟩
    have hs : Stage.fresh.afterAll (session cycles) = some .ended := by
      change Stage.background.afterAll (cycles.flatMap cycle ++ [.destroy]) = some .ended
      rw [Stage.afterAll_append, Stage.afterAll_cycles]
      rfl
    rw [← h, Stage.afterAll_append] at hs
    obtain ⟨st, hst, -⟩ := Option.bind_eq_some_iff.mp hs
    exact ⟨st, hst⟩
  · rintro ⟨st, h⟩
    have hc := Stage.calls_of_afterAll h
    cases st with
    | fresh => exact ⟨[], hc ▸ List.nil_prefix⟩
    | background =>
        obtain ⟨cycles, rfl⟩ := hc
        exact ⟨cycles, [.destroy], rfl⟩
    | foreground =>
        obtain ⟨cycles, ticks, rfl⟩ := hc
        exact ⟨cycles ++ [ticks], [.pause, .destroy], by simp [session, cycle]⟩
    | ended =>
        obtain ⟨cycles, rfl⟩ := hc
        exact ⟨cycles, List.prefix_rfl⟩

namespace EntryPoint

/-! ## Histories -/

/-- The Activity `a` was resumed and not paused since. -/
def Resumed (a : Nat) (w : List Event) : Prop :=
  ∃ before rest, w = before ++ .callback a .resumed :: rest ∧ .callback a .paused ∉ rest

/-- No Activity is resumed or destroyed while another is in the foreground, or after
one has been destroyed. -/
def Exclusive (w : List Event) : Prop :=
  ∀ before a c rest, w = before ++ .callback a c :: rest → c = .resumed ∨ c = .destroyed →
    (∀ b, ¬ Resumed b before) ∧ ∀ b, .callback b .destroyed ∉ before

theorem Exclusive.of_append {w w' : List Event} (h : Exclusive (w ++ w')) : Exclusive w :=
  fun before a c rest hw ↦ h before a c (rest ++ w') (by
    rw [hw, List.append_assoc, List.cons_append])

theorem resumed_snoc {a : Nat} {w : List Event} {e : Event} :
    Resumed a (w ++ [e]) ↔
      e = .callback a .resumed ∨ (Resumed a w ∧ e ≠ .callback a .paused) := by
  constructor
  · rintro ⟨before, rest, h, hp⟩
    rcases Lts.cut_snoc h with ⟨rfl, rfl⟩ | ⟨rest, rfl, rfl⟩
    · exact .inl rfl
    · rw [List.mem_append, not_or] at hp
      exact .inr ⟨⟨before, rest, rfl, hp.1⟩, fun he ↦ hp.2 (by simp [he])⟩
  · rintro (rfl | ⟨⟨before, rest, rfl, hp⟩, he⟩)
    · exact ⟨w, [], rfl, nofun⟩
    · refine ⟨before, rest ++ [e], by simp, ?_⟩
      rw [List.mem_append, not_or]
      exact ⟨hp, fun h ↦ he (List.mem_singleton.mp h).symm⟩

theorem not_resumed_nil (a : Nat) : ¬ Resumed a [] := by
  rintro ⟨before, rest, h, -⟩
  simp at h

theorem exclusive_snoc {w : List Event} {e : Event} :
    Exclusive (w ++ [e]) ↔ Exclusive w ∧
      ∀ a c, e = .callback a c → c = .resumed ∨ c = .destroyed →
        (∀ b, ¬ Resumed b w) ∧ ∀ b, .callback b .destroyed ∉ w := by
  refine ⟨fun h ↦ ⟨h.of_append, fun a c he hc ↦ h w a c [] (by rw [he]) hc⟩, ?_⟩
  rintro ⟨hw, he⟩ before a c rest h hc
  rcases Lts.cut_snoc h with ⟨rfl, rfl⟩ | ⟨rest, rfl, -⟩
  · exact he a c rfl hc
  · exact hw before a c rest rfl hc

theorem exclusive_nil : Exclusive [] := by
  intro before a c rest h
  simp at h

variable {bound : Bool} {s : EntryPoint}

/-- The history says who is resumed. -/
theorem phase_resumed_iff {w : List Event} (h : (system bound).Run initial w s) (a : Nat) :
    s.phase a = .resumed ↔ Resumed a w := by
  refine h.history (P := fun w s ↦ s.phase a = .resumed ↔ Resumed a w) ?_ ?_
  · exact iff_of_false nofun (not_resumed_nil a)
  · intro w t e t' _ ih hstep
    rw [resumed_snoc, ← ih]
    cases e with
    | vsync time =>
        obtain rfl := Option.some.inj hstep
        rw [(vsync_frame bound time t).1]
        simp
    | callback b c =>
        obtain ⟨p, hp, rfl⟩ := Option.map_eq_some_iff.mp hstep
        rw [onCallback_phase]
        simp only [Event.callback.injEq, ne_eq, not_and]
        by_cases hab : a = b
        · subst hab
          simp only [Function.update_self, true_and, forall_const]
          generalize t.phase a = q at hp
          cases q <;> cases c <;> first | (cases hp; decide) | cases hp
        · simp [Function.update_of_ne hab, Ne.symm hab]

/-! ## The stage and the Activities -/

/-- How the stage of the native session mirrors the process. -/
private structure Mirrors (w : List Event) (s : EntryPoint) (st : Stage) : Prop where
  calls : Stage.fresh.afterAll s.native = some st
  nativeStarted : s.nativeStarted = true ↔ st ≠ .fresh
  absent : s.nativeStarted = false → ∀ a, s.phase a = .absent
  active : s.ticker.active = true ↔ st = .foreground
  resumed : (∃ a, s.phase a = .resumed) ↔ st = .foreground
  unique : ∀ {a b}, s.phase a = .resumed → s.phase b = .resumed → a = b
  destroyed : (∃ a, .callback a .destroyed ∈ w) ↔ st = .ended

/-- The ticks of a vsync: none unless the ticker is active, which it stays or not. -/
theorem vsync_native (t : Int) (s : EntryPoint) :
    (vsync true t s).ticker.active = s.ticker.active ∧
      ∃ ticks : List Int, (vsync true t s).native = s.native ++ ticks.map .tick ∧
        (s.ticker.active = false → ticks = []) := by
  unfold vsync
  generalize s.ticker.pending = n
  generalize hs : ({ s with ticker := { s.ticker with pending := 0 } } : EntryPoint) = s₀
  have ha : s₀.ticker.active = s.ticker.active := by subst hs; rfl
  have hn : s₀.native = s.native := by subst hs; rfl
  clear hs
  rw [← ha, ← hn]
  clear ha hn
  induction n generalizing s₀ with
  | zero => exact ⟨rfl, [], (List.append_nil _).symm, fun _ ↦ rfl⟩
  | succ n ih =>
      rw [Function.iterate_succ_apply]
      obtain ⟨hact, ticks, hnat, hnil⟩ := ih (doFrame true t s₀)
      by_cases ha : s₀.ticker.active = true
      · have hd : (doFrame true t s₀).ticker.active = true ∧ ∃ d : Int,
            (doFrame true t s₀).native = s₀.native ++ [.tick d] := by
          unfold doFrame
          rw [if_pos ha]
          exact ⟨ha, _, rfl⟩
        obtain ⟨hd, d, hd'⟩ := hd
        refine ⟨hact.trans (hd.trans ha.symm), d :: ticks, ?_, fun h ↦ ?_⟩
        · rw [hnat, hd', List.append_assoc]
          rfl
        · rw [ha] at h
          cases h
      · have hd : doFrame true t s₀ = s₀ := if_neg ha
        rw [hd] at hact hnat hnil ⊢
        exact ⟨hact, ticks, hnat, hnil⟩

/-- What a callback sends, and what it leaves of the ticker. -/
theorem onCallback_native (a : Nat) (c : Callback) (s : EntryPoint) :
    (onCallback true a c s).native = s.native ++
        (match c with
          | .created => if s.nativeStarted then [] else [.start]
          | .resumed => [.resume]
          | .paused => [.pause]
          | .destroyed => [.destroy]
          | .started | .stopped | .saveInstanceState => []) ∧
      (onCallback true a c s).ticker.active =
        (match c with
          | .resumed => true
          | .paused => false
          | _ => s.ticker.active) ∧
      (onCallback true a c s).nativeStarted =
        (match c with
          | .created => true
          | _ => s.nativeStarted) := by
  cases c with
  | created =>
      cases h : s.nativeStarted <;>
        simp [onCallback, onActivityCreated, dispatchStarted, dispatch, h]
  | started | stopped | saveInstanceState => simp [onCallback]
  | resumed => simp [onCallback, onActivityResumed]
  | paused => simp [onCallback, onActivityPaused]
  | destroyed => simp [onCallback, onActivityDestroyed]

/-- The calls of a step extend those before it. -/
theorem native_extends {e : Event} {s' : EntryPoint} (h : next true s e = some s') :
    s.native <+: s'.native := by
  cases e with
  | vsync t =>
      obtain rfl := Option.some.inj h
      obtain ⟨-, ticks, hn, -⟩ := vsync_native t s
      exact ⟨_, hn.symm⟩
  | callback a c =>
      obtain ⟨p, -, rfl⟩ := Option.map_eq_some_iff.mp h
      exact ⟨_, (onCallback_native a c { s with phase := Function.update s.phase a p }).1.symm⟩

/-- Callbacks other than these two leave who is resumed. -/
theorem resumed_update {a : Nat} {c : Callback} {p : Phase}
    (hp : (s.phase a).after c = some p) (hr : c ≠ .resumed) (hpa : c ≠ .paused) (b : Nat) :
    Function.update s.phase a p b = .resumed ↔ s.phase b = .resumed := by
  by_cases hb : b = a
  · subst hb
    rw [Function.update_self]
    generalize s.phase b = q at hp
    cases c with
    | resumed => exact absurd rfl hr
    | paused => exact absurd rfl hpa
    | created | started | stopped | saveInstanceState | destroyed =>
        cases q <;> first | (cases hp; decide) | cases hp
  · rw [Function.update_of_ne hb]

private theorem destroyed_snoc (w : List Event) (a : Nat) (c : Callback) (hc : c ≠ .destroyed) :
    (∃ b, .callback b .destroyed ∈ w ++ [.callback a c]) ↔ ∃ b, .callback b .destroyed ∈ w := by
  simp [hc.symm]

section Mirror

variable {w : List Event} {st : Stage} {a : Nat} {c : Callback} {p : Phase}

/-- Only the creation of the first Activity finds the native side not started. -/
private theorem Mirrors.started (h : Mirrors w s st) (hp : (s.phase a).after c = some p)
    (hc : c ≠ .created) : s.nativeStarted = true := by
  obtain ⟨-, -, hcr, -, -, -⟩ := Phase.after_eq_some hp
  by_contra hn
  exact hc (hcr.mp (h.absent (by simpa using hn) a))

/-- With nobody resumed and none destroyed it is in the background. -/
private theorem Mirrors.background (h : Mirrors w s st) (hs : s.nativeStarted = true)
    (hnobody : ∀ b, s.phase b ≠ .resumed) (hnone : ∀ b, .callback b .destroyed ∉ w) :
    st = .background := by
  have hfresh := h.nativeStarted.mp hs
  have hforeground := h.resumed.not.mp fun ⟨b, hb⟩ ↦ hnobody b hb
  have hended := h.destroyed.not.mp fun ⟨b, hb⟩ ↦ hnone b hb
  cases st with
  | fresh => exact absurd rfl hfresh
  | background => rfl
  | foreground => exact absurd rfl hforeground
  | ended => exact absurd rfl hended

/-- After any callback the native side has been started; what is left to say is the stage. -/
private theorem Mirrors.callback {st' : Stage} {calls : List NativeCall} (h : Mirrors w s st)
    (hp : (s.phase a).after c = some p)
    (hnative : (onCallback true a c { s with phase := Function.update s.phase a p }).native =
      s.native ++ calls)
    (hcalls : st.afterAll calls = some st') (hfresh : st' ≠ .fresh)
    (hactive : (onCallback true a c { s with
      phase := Function.update s.phase a p }).ticker.active = true ↔ st' = .foreground)
    (hresumed : (∃ b, Function.update s.phase a p b = .resumed) ↔ st' = .foreground)
    (hunique : ∀ {b b'}, Function.update s.phase a p b = .resumed →
      Function.update s.phase a p b' = .resumed → b = b')
    (hdestroyed : (∃ b, .callback b .destroyed ∈ w ++ [.callback a c]) ↔ st' = .ended) :
    Mirrors (w ++ [.callback a c])
      (onCallback true a c { s with phase := Function.update s.phase a p }) st' := by
  obtain ⟨-, -, hns⟩ := onCallback_native a c { s with phase := Function.update s.phase a p }
  have hph : (onCallback true a c { s with phase := Function.update s.phase a p }).phase =
    Function.update s.phase a p := onCallback_phase ..
  have hstarted : (onCallback true a c { s with
      phase := Function.update s.phase a p }).nativeStarted = true := by
    rw [hns]
    cases c with
    | created => rfl
    | started | resumed | paused | stopped | saveInstanceState | destroyed =>
        exact h.started hp (by rintro ⟨⟩)
  refine ⟨?_, iff_of_true hstarted hfresh, fun hn ↦ ?_, hactive, ?_, ?_, hdestroyed⟩
  · rw [hnative, Stage.afterAll_append, h.calls]
    exact hcalls
  · rw [hstarted] at hn
    cases hn
  · rw [hph]
    exact hresumed
  · rw [hph]
    exact hunique

/-- A callback that neither resumes nor pauses leaves who is resumed. -/
private theorem Mirrors.unique_update (h : Mirrors w s st) (hp : (s.phase a).after c = some p)
    (hr : c ≠ .resumed) (hpa : c ≠ .paused) {b b' : Nat}
    (hb : Function.update s.phase a p b = .resumed)
    (hb' : Function.update s.phase a p b' = .resumed) : b = b' :=
  h.unique ((resumed_update hp hr hpa b).mp hb) ((resumed_update hp hr hpa b').mp hb')

private theorem Mirrors.created (h : Mirrors w s st) (hp : (s.phase a).after .created = some p) :
    ∃ st', Mirrors (w ++ [.callback a .created])
      (onCallback true a .created { s with phase := Function.update s.phase a p }) st' := by
  obtain ⟨hnative, hactive, -⟩ :=
    onCallback_native a .created { s with phase := Function.update s.phase a p }
  have hresumed := resumed_update hp (by rintro ⟨⟩) (by rintro ⟨⟩)
  have hdestroyed := destroyed_snoc w a .created (by rintro ⟨⟩)
  by_cases hn : s.nativeStarted = true
  · refine ⟨st, h.callback hp hnative ?_ (h.nativeStarted.mp hn) (hactive ▸ h.active)
      ((exists_congr hresumed).trans h.resumed)
      (h.unique_update hp (by rintro ⟨⟩) (by rintro ⟨⟩)) (hdestroyed.trans h.destroyed)⟩
    rw [if_pos hn]
    rfl
  · -- the native side starts, and its session is in the background
    obtain rfl : st = .fresh := by
      by_contra hne
      exact hn (h.nativeStarted.mpr hne)
    refine ⟨.background, h.callback hp hnative ?_ (by rintro ⟨⟩) ?_ ?_
      (h.unique_update hp (by rintro ⟨⟩) (by rintro ⟨⟩)) ?_⟩
    · rw [if_neg hn]
      rfl
    · rw [hactive]
      exact h.active.trans (by decide)
    · exact ((exists_congr hresumed).trans h.resumed).trans (by decide)
    · exact (hdestroyed.trans h.destroyed).trans (by decide)

private theorem Mirrors.resume (h : Mirrors w s st) (hp : (s.phase a).after .resumed = some p)
    (hnobody : ∀ b, s.phase b ≠ .resumed) (hnone : ∀ b, .callback b .destroyed ∉ w) :
    Mirrors (w ++ [.callback a .resumed])
      (onCallback true a .resumed { s with phase := Function.update s.phase a p })
      .foreground := by
  obtain ⟨hnative, hactive, -⟩ :=
    onCallback_native a .resumed { s with phase := Function.update s.phase a p }
  obtain rfl := h.background (h.started hp (by rintro ⟨⟩)) hnobody hnone
  have hp' : p = .resumed := by
    generalize s.phase a = q at hp
    cases q <;> first | (cases hp; rfl) | cases hp
  have honly : ∀ {b}, Function.update s.phase a p b = .resumed → b = a := by
    intro b hb
    by_contra hba
    rw [Function.update_of_ne hba] at hb
    exact hnobody b hb
  refine h.callback hp hnative rfl (by rintro ⟨⟩) (iff_of_true hactive rfl)
    (iff_of_true ⟨a, ?_⟩ rfl) (fun hb hb' ↦ (honly hb).trans (honly hb').symm) ?_
  · rw [Function.update_self, hp']
  · apply (destroyed_snoc w a .resumed (by rintro ⟨⟩)).trans
    exact iff_of_false (fun ⟨b, hb⟩ ↦ hnone b hb) (by rintro ⟨⟩)

private theorem Mirrors.pause (h : Mirrors w s st) (hp : (s.phase a).after .paused = some p) :
    Mirrors (w ++ [.callback a .paused])
      (onCallback true a .paused { s with phase := Function.update s.phase a p })
      .background := by
  obtain ⟨hnative, hactive, -⟩ :=
    onCallback_native a .paused { s with phase := Function.update s.phase a p }
  obtain ⟨hresumed, rfl⟩ : s.phase a = .resumed ∧ p = .paused := by
    generalize s.phase a = q at hp
    cases q <;> first | (cases hp; exact ⟨rfl, rfl⟩) | cases hp
  obtain rfl : st = .foreground := h.resumed.mp ⟨a, hresumed⟩
  have hnobody : ∀ b, Function.update s.phase a .paused b ≠ .resumed := by
    intro b hb
    by_cases hba : b = a
    · rw [hba, Function.update_self] at hb
      cases hb
    · rw [Function.update_of_ne hba] at hb
      exact hba (h.unique hb hresumed)
  refine h.callback hp hnative rfl (by rintro ⟨⟩) ?_ ?_ (fun hb _ ↦ absurd hb (hnobody _)) ?_
  · rw [hactive]
    exact iff_of_false Bool.false_ne_true (by rintro ⟨⟩)
  · exact iff_of_false (fun ⟨b, hb⟩ ↦ hnobody b hb) (by rintro ⟨⟩)
  · exact ((destroyed_snoc w a .paused (by rintro ⟨⟩)).trans h.destroyed).trans (by decide)

private theorem Mirrors.destroy (h : Mirrors w s st)
    (hp : (s.phase a).after .destroyed = some p)
    (hnobody : ∀ b, s.phase b ≠ .resumed) (hnone : ∀ b, .callback b .destroyed ∉ w) :
    Mirrors (w ++ [.callback a .destroyed])
      (onCallback true a .destroyed { s with phase := Function.update s.phase a p })
      .ended := by
  obtain ⟨hnative, hactive, -⟩ :=
    onCallback_native a .destroyed { s with phase := Function.update s.phase a p }
  obtain rfl := h.background (h.started hp (by rintro ⟨⟩)) hnobody hnone
  have hresumed := resumed_update hp (by rintro ⟨⟩) (by rintro ⟨⟩)
  refine h.callback hp hnative rfl (by rintro ⟨⟩) ?_ ?_
    (h.unique_update hp (by rintro ⟨⟩) (by rintro ⟨⟩)) (iff_of_true ⟨a, by simp⟩ rfl)
  · rw [hactive]
    exact h.active.trans (by decide)
  · exact iff_of_false (fun ⟨b, hb⟩ ↦ hnobody b ((hresumed b).mp hb)) (by rintro ⟨⟩)

/-- The callbacks that the native side is not told of. -/
private theorem Mirrors.untold (h : Mirrors w s st) (hp : (s.phase a).after c = some p)
    (hc : c = .started ∨ c = .stopped ∨ c = .saveInstanceState) :
    Mirrors (w ++ [.callback a c])
      (onCallback true a c { s with phase := Function.update s.phase a p }) st := by
  have htold := onCallback_native a c { s with phase := Function.update s.phase a p }
  obtain ⟨hnative, hactive⟩ : (onCallback true a c { s with
      phase := Function.update s.phase a p }).native = s.native ++ [] ∧
      (onCallback true a c { s with phase := Function.update s.phase a p }).ticker.active =
        s.ticker.active := by
    rcases hc with rfl | rfl | rfl <;> exact ⟨htold.1, htold.2.1⟩
  have hresumed := resumed_update hp (by rintro rfl; simp at hc) (by rintro rfl; simp at hc)
  have hdestroyed := destroyed_snoc w a c (by rintro rfl; simp at hc)
  refine h.callback hp hnative rfl ?_ ?_ ((exists_congr hresumed).trans h.resumed)
    (h.unique_update hp (by rintro rfl; simp at hc) (by rintro rfl; simp at hc))
    (hdestroyed.trans h.destroyed)
  · exact h.nativeStarted.mp (h.started hp (by rintro rfl; simp at hc))
  · rw [hactive]
    exact h.active

private theorem Mirrors.vsync (h : Mirrors w s st) (t : Int) :
    Mirrors (w ++ [.vsync t]) (EntryPoint.vsync true t s) st := by
  obtain ⟨hp, -, -, hns⟩ := vsync_frame true t s
  obtain ⟨hact, ticks, hnat, hnil⟩ := vsync_native t s
  refine ⟨?_, hns ▸ h.nativeStarted, hns ▸ hp ▸ h.absent, hact ▸ h.active,
    hp ▸ h.resumed, hp ▸ h.unique, by simpa using h.destroyed⟩
  rw [hnat, Stage.afterAll_append, h.calls, Option.bind_some]
  cases hst : s.ticker.active with
  | false =>
      rw [hnil hst]
      rfl
  | true =>
      rw [h.active.mp hst]
      exact Stage.afterAll_ticks ticks

/-- A step that the history allows keeps the mirror. -/
private theorem Mirrors.step {e : Event} {s' : EntryPoint}
    (h : Mirrors w s st) (hstep : next true s e = some s')
    (he : ∀ a c, e = .callback a c → c = .resumed ∨ c = .destroyed →
      (∀ b, s.phase b ≠ .resumed) ∧ ∀ b, .callback b .destroyed ∉ w) :
    ∃ st', Mirrors (w ++ [e]) s' st' := by
  cases e with
  | vsync t =>
      obtain rfl := Option.some.inj hstep
      exact ⟨st, h.vsync t⟩
  | callback a c =>
      obtain ⟨p, hp, rfl⟩ := Option.map_eq_some_iff.mp hstep
      cases c with
      | created => exact h.created hp
      | started => exact ⟨st, h.untold hp (.inl rfl)⟩
      | stopped => exact ⟨st, h.untold hp (.inr (.inl rfl))⟩
      | saveInstanceState => exact ⟨st, h.untold hp (.inr (.inr rfl))⟩
      | resumed =>
          obtain ⟨hnobody, hnone⟩ := he a .resumed rfl (.inl rfl)
          exact ⟨.foreground, h.resume hp hnobody hnone⟩
      | paused => exact ⟨.background, h.pause hp⟩
      | destroyed =>
          obtain ⟨hnobody, hnone⟩ := he a .destroyed rfl (.inr rfl)
          exact ⟨.ended, h.destroy hp hnobody hnone⟩

end Mirror

/-- The calls a history produces are in the grammar exactly when it is exclusive, and
then the stage mirrors the process. -/
private theorem exclusive_iff_mirrors {w : List Event} (h : (system true).Run initial w s) :
    (SessionPrefix s.native → Exclusive w) ∧ (Exclusive w → ∃ st, Mirrors w s st) := by
  refine h.history (P := fun w s ↦ (SessionPrefix s.native → Exclusive w) ∧
    (Exclusive w → ∃ st, Mirrors w s st)) ?_ ?_
  · refine ⟨fun _ before a c rest hw ↦ by simp at hw, fun _ ↦ ⟨.fresh, rfl, ?_, ?_, ?_, ?_, ?_, ?_⟩⟩
    · exact iff_of_false nofun fun h ↦ h rfl
    · exact fun _ _ ↦ rfl
    · exact iff_of_false nofun nofun
    · exact iff_of_false nofun nofun
    · exact nofun
    · exact iff_of_false nofun nofun
  · rintro w t e t' hrun ⟨ih₁, ih₂⟩ hstep
    constructor
    · intro hprefix
      obtain ⟨cycles, hcycles⟩ := hprefix
      have hw := ih₁ ⟨cycles, (native_extends hstep).trans hcycles⟩
      obtain ⟨st, hm⟩ := ih₂ hw
      obtain ⟨st', hst'⟩ := sessionPrefix_iff.mp ⟨cycles, hcycles⟩
      intro before a c rest hsplit hc
      rcases List.eq_nil_or_concat rest with rfl | ⟨rest, x, rfl⟩
      · -- the last event: it was accepted, so the stage was background
        obtain ⟨rfl, he⟩ := List.append_inj' hsplit rfl
        obtain rfl := List.singleton_inj.mp he
        obtain ⟨p, -, rfl⟩ := Option.map_eq_some_iff.mp hstep
        rw [(onCallback_native a c _).1, Stage.afterAll_append, hm.calls, Option.bind_some] at hst'
        have hst : st = .background := by
          rcases hc with rfl | rfl <;> cases st <;> first | rfl | cases hst'
        subst hst
        constructor
        · intro b hb
          exact absurd (hm.resumed.mp ⟨b, (phase_resumed_iff hrun b).mpr hb⟩) nofun
        · intro b hb
          exact absurd (hm.destroyed.mp ⟨b, hb⟩) nofun
      · rw [List.concat_eq_append, ← List.cons_append, ← List.append_assoc] at hsplit
        obtain ⟨rfl, -⟩ := List.append_inj' hsplit rfl
        exact hw before a c rest rfl hc
    · intro hw
      obtain ⟨st, hm⟩ := ih₂ hw.of_append
      apply hm.step hstep
      intro a c he hc
      obtain ⟨h₁, h₂⟩ := hw w a c [] (by rw [he]) hc
      exact ⟨fun b hb ↦ h₁ b ((phase_resumed_iff hrun b).mp hb), h₂⟩

/-- With the native methods not bound, the native side hears nothing. -/
theorem native_of_not_bound {w : List Event} (h : (system false).Run initial w s) :
    s.native = [] := by
  have hframe : ∀ t s, (doFrame false t s).native = s.native := fun t s ↦ by
    unfold doFrame
    split
    · simp
    · rfl
  refine h.invariant (I := fun s ↦ s.native = []) ?_ rfl
  intro s e s' hstep hs
  cases e with
  | vsync t =>
      obtain rfl := Option.some.inj hstep
      exact Function.Iterate.rec (fun s : EntryPoint ↦ s.native = [])
        (a := { s with ticker := { s.ticker with pending := 0 } }) hs
        (fun s hs ↦ (hframe t s).trans hs) s.ticker.pending
  | callback a c =>
      obtain ⟨p, -, rfl⟩ := Option.map_eq_some_iff.mp hstep
      cases c <;>
        simp [onCallback, onActivityCreated, onActivityResumed, onActivityPaused,
          onActivityDestroyed, dispatchStarted, hs]
      split
      · rfl
      · exact dispatch_native ..

/-- The native stream of a history is a prefix of a session if and only if nothing is
bound, or no Activity is resumed or destroyed while another is in the foreground or
after one has been destroyed. -/
theorem native_sessionPrefix_iff (bound : Bool) (w : List Event) (s : EntryPoint)
    (h : (system bound).Run initial w s) :
    SessionPrefix s.native ↔ (bound = true → Exclusive w) := by
  cases bound with
  | true =>
      obtain ⟨h₁, h₂⟩ := exclusive_iff_mirrors h
      refine ⟨fun hp _ ↦ h₁ hp, fun hw ↦ ?_⟩
      obtain ⟨st, hm⟩ := h₂ (hw rfl)
      exact sessionPrefix_iff.mpr ⟨st, hm.calls⟩
  | false => exact iff_of_true ⟨[], by rw [native_of_not_bound h]; exact List.nil_prefix⟩ nofun

/-- A rotation: the Activity is destroyed, and its successor resumed. -/
def rotation : List Event :=
  [.callback 0 .created, .callback 0 .started, .callback 0 .resumed, .vsync 16, .vsync 33,
    .callback 0 .paused, .callback 0 .stopped, .callback 0 .destroyed,
    .callback 1 .created, .callback 1 .started, .callback 1 .resumed]

/-- After a rotation the native side is resumed though it was destroyed. -/
theorem rotation_not_session : ∃ s, (system true).Run initial rotation s ∧
    s.native = [.start, .resume, .tick 0, .tick 17, .pause, .destroy, .resume] ∧
    ¬ SessionPrefix s.native := by
  obtain ⟨s, hs⟩ : ∃ s, after true rotation initial = some s := ⟨_, rfl⟩
  have hn : (after true rotation initial).map native =
      some [.start, .resume, .tick 0, .tick 17, .pause, .destroy, .resume] := by decide
  rw [hs] at hn
  have hn := Option.some.inj hn
  refine ⟨s, run_of_after hs, hn, fun hp ↦ ?_⟩
  obtain ⟨st, hst⟩ := sessionPrefix_iff.mp hp
  rw [hn] at hst
  cases hst

/-- A second Activity comes to the front of the first, which then stops. -/
def secondScreen : List Event :=
  [.callback 0 .created, .callback 0 .started, .callback 0 .resumed, .vsync 16,
    .callback 0 .paused, .callback 1 .created, .callback 1 .started, .callback 1 .resumed,
    .callback 0 .stopped, .vsync 33]

/-- The stream of both is in the grammar. -/
theorem native_sessionPrefix_secondScreen : ∃ s, (system true).Run initial secondScreen s ∧
    s.native = [.start, .resume, .tick 0, .pause, .resume, .tick 0] ∧
    SessionPrefix s.native := by
  obtain ⟨s, hs⟩ : ∃ s, after true secondScreen initial = some s := ⟨_, rfl⟩
  have hn : (after true secondScreen initial).map native =
      some [.start, .resume, .tick 0, .pause, .resume, .tick 0] := by decide
  rw [hs] at hn
  have h := run_of_after hs
  refine ⟨s, h, Option.some.inj hn, (native_sessionPrefix_iff true _ _ h).mpr fun _ ↦ ?_⟩
  have hsnoc : secondScreen = [] ++ [.callback 0 .created] ++ [.callback 0 .started] ++
      [.callback 0 .resumed] ++ [.vsync 16] ++ [.callback 0 .paused] ++ [.callback 1 .created] ++
      [.callback 1 .started] ++ [.callback 1 .resumed] ++ [.callback 0 .stopped] ++ [.vsync 33] :=
    rfl
  rw [hsnoc]
  simp only [exclusive_snoc, exclusive_nil, resumed_snoc, not_resumed_nil]
  simp

end EntryPoint

end Konative.Android
