import Konative.Lib.Lts
import Mathlib.Logic.Function.Iterate

/-!
# The Kotlin entry point

`KonativeEntryPoint.install` registers one `ActivityLifecycleCallbacks` object for
the whole process.  Android calls it for every Activity; it keeps one `owner`, the
`ComposeHostOwner` of an Activity, and tells the native side about the lifecycle,
and `FrameTicker` sends the native side a tick for each frame while it is active.

An Activity instance is a number.  Its own callbacks come in Android's order, which
is `Phase.after`; those of different instances interleave in any way.  `bound` says
whether `RegisterNatives` bound the native methods: when it did not, a dispatch
throws `UnsatisfiedLinkError`, which is caught, and the native side sees nothing.
-/

namespace Konative.Android

/-- The callbacks of `ActivityLifecycleCallbacks`. -/
inductive Callback
  | created
  | started
  | resumed
  | paused
  | stopped
  | saveInstanceState
  | destroyed
deriving DecidableEq, Repr

/-- Where an Activity instance is in its lifecycle. -/
inductive Phase
  | absent
  | created
  | started
  | resumed
  | paused
  | stopped
  | destroyed
deriving DecidableEq, Repr

/-- The order in which the callbacks of one instance come. -/
def Phase.after : Phase → Callback → Option Phase
  | .absent, .created => some .created
  | .created, .started => some .started
  | .created, .destroyed => some .destroyed
  | .started, .resumed => some .resumed
  | .started, .stopped => some .stopped
  | .resumed, .paused => some .paused
  | .paused, .resumed => some .resumed
  | .paused, .stopped => some .stopped
  | .stopped, .started => some .started
  | .stopped, .destroyed => some .destroyed
  | .absent, .saveInstanceState | .destroyed, .saveInstanceState => none
  | p, .saveInstanceState => some p
  | _, _ => none

/-- What the order of callbacks says. -/
theorem Phase.after_eq_some {p p' : Phase} {c : Callback}
    (h : p.after c = some p') :
    p' ≠ .absent ∧ p ≠ .destroyed ∧ (p = .absent ↔ c = .created) ∧
      (p' = .destroyed ↔ c = .destroyed) ∧ (c = .resumed → p ≠ .resumed) ∧
      (p' = .resumed ↔ c = .resumed ∨ (p = .resumed ∧ c = .saveInstanceState)) := by
  cases p <;> cases c <;> first | (cases h; decide) | cases h

/-- Created and not destroyed. -/
abbrev Phase.Alive (p : Phase) : Prop := p ≠ .absent ∧ p ≠ .destroyed

/-- `androidx.lifecycle.Lifecycle.Event`. -/
inductive LifecycleEvent
  | onCreate
  | onStart
  | onResume
  | onPause
  | onStop
  | onDestroy
deriving DecidableEq, Repr

/-- The event that a callback is. -/
def Callback.event : Callback → Option LifecycleEvent
  | .created => some .onCreate
  | .started => some .onStart
  | .resumed => some .onResume
  | .paused => some .onPause
  | .stopped => some .onStop
  | .saveInstanceState => none
  | .destroyed => some .onDestroy

/-- What the native side receives: `nativeDispatchLifecycle` with one of its four
events, or `nativeTick` with the time since the last frame. -/
inductive NativeCall
  | start
  | resume
  | pause
  | destroy
  | tick (deltaNanos : Int)
deriving DecidableEq, Repr

/-- `FrameTicker`, and how many of its callbacks the Choreographer holds. -/
structure FrameTicker where
  active : Bool
  lastFrameTimeNanos : Int
  pending : Nat
deriving DecidableEq, Repr

namespace FrameTicker

/-- `FrameTicker.start()`. -/
def start (t : FrameTicker) : FrameTicker :=
  if t.active then t else ⟨true, 0, t.pending + 1⟩

/-- `FrameTicker.stop()`. -/
def stop (t : FrameTicker) : FrameTicker := { t with active := false, pending := 0 }

@[simp] theorem start_active (t : FrameTicker) : t.start.active = true := by
  unfold start
  split
  · assumption
  · rfl

@[simp] theorem stop_active (t : FrameTicker) : t.stop.active = false := rfl

end FrameTicker

/-- The Activities of the process, the callbacks object, and the owners and the native
side it talks to. -/
structure EntryPoint where
  /-- Where each Activity is. -/
  phase : Nat → Phase
  /-- `owner`: the Activity whose `ComposeHostOwner` it holds. -/
  owner : Option Nat
  /-- The events each Activity's `ComposeHostOwner` has handled, in order. -/
  received : Nat → List LifecycleEvent
  nativeStarted : Bool
  ticker : FrameTicker
  /-- The calls the native side has received, in order. -/
  native : List NativeCall

namespace EntryPoint

/-- Before any Activity. -/
def initial : EntryPoint where
  phase _ := .absent
  owner := none
  received _ := []
  nativeStarted := false
  ticker := ⟨false, 0, 0⟩
  native := []

/-- `owner?.registry?.handleLifecycleEvent(e)`. -/
def handleLifecycleEvent (e : LifecycleEvent) (s : EntryPoint) : EntryPoint :=
  match s.owner with
  | none => s
  | some a => { s with received := Function.update s.received a (s.received a ++ [e]) }

/-- `dispatchToNative` and `dispatchTickToNative`. -/
def dispatch (bound : Bool) (c : NativeCall) (s : EntryPoint) : EntryPoint :=
  if bound then { s with native := s.native ++ [c] } else s

/-- The STARTED dispatch, once in the process. -/
def dispatchStarted (bound : Bool) (s : EntryPoint) : EntryPoint :=
  if s.nativeStarted then s else dispatch bound .start { s with nativeStarted := true }

/-- `onActivityCreated`. -/
def onActivityCreated (bound : Bool) (a : Nat) (s : EntryPoint) : EntryPoint :=
  let s := dispatchStarted bound s
  handleLifecycleEvent .onCreate
    { s with owner := some a, received := Function.update s.received a [] }

/-- `onActivityResumed`. -/
def onActivityResumed (bound : Bool) (s : EntryPoint) : EntryPoint :=
  let s := dispatch bound .resume (handleLifecycleEvent .onResume s)
  { s with ticker := s.ticker.start }

/-- `onActivityPaused`. -/
def onActivityPaused (bound : Bool) (s : EntryPoint) : EntryPoint :=
  let s := handleLifecycleEvent .onPause s
  dispatch bound .pause { s with ticker := s.ticker.stop }

/-- `onActivityDestroyed`. -/
def onActivityDestroyed (bound : Bool) (s : EntryPoint) : EntryPoint :=
  dispatch bound .destroy { handleLifecycleEvent .onDestroy s with owner := none }

/-- The callback for an Activity.  Only `onActivityCreated` looks at which one. -/
def onCallback (bound : Bool) (a : Nat) : Callback → EntryPoint → EntryPoint
  | .created => onActivityCreated bound a
  | .started => handleLifecycleEvent .onStart
  | .resumed => onActivityResumed bound
  | .paused => onActivityPaused bound
  | .stopped => handleLifecycleEvent .onStop
  -- `owner?.performSave(outState)` writes to the bundle only
  | .saveInstanceState => id
  | .destroyed => onActivityDestroyed bound

/-- `FrameTicker.doFrame(frameTimeNanos)`. -/
def doFrame (bound : Bool) (frameTimeNanos : Int) (s : EntryPoint) : EntryPoint :=
  if s.ticker.active then
    let delta :=
      if s.ticker.lastFrameTimeNanos = 0 then 0 else frameTimeNanos - s.ticker.lastFrameTimeNanos
    let s := dispatch bound (.tick delta)
      { s with ticker := { s.ticker with lastFrameTimeNanos := frameTimeNanos } }
    { s with ticker := { s.ticker with pending := s.ticker.pending + 1 } }
  else s

/-- A vsync: the Choreographer takes the callbacks it holds and runs each. -/
def vsync (bound : Bool) (frameTimeNanos : Int) (s : EntryPoint) : EntryPoint :=
  (doFrame bound frameTimeNanos)^[s.ticker.pending]
    { s with ticker := { s.ticker with pending := 0 } }

/-- What can happen on the main thread. -/
inductive Event
  | callback (a : Nat) (c : Callback)
  | vsync (frameTimeNanos : Int)
deriving DecidableEq, Repr

/-- The next state, where the event is legal. -/
def next (bound : Bool) (s : EntryPoint) : Event → Option EntryPoint
  | .callback a c =>
      ((s.phase a).after c).map fun p ↦
        onCallback bound a c { s with phase := Function.update s.phase a p }
  | .vsync t => some (vsync bound t s)

/-- The process, for any number of Activities. -/
def system (bound : Bool) : Lts EntryPoint Event where
  init s := s = initial
  step s e s' := next bound s e = some s'

/-- The state after a history. -/
def after (bound : Bool) : List Event → EntryPoint → Option EntryPoint
  | [], s => some s
  | e :: w, s => (next bound s e).bind (after bound w)

theorem run_of_after {bound : Bool} {w : List Event} {s s' : EntryPoint}
    (h : after bound w s = some s') : (system bound).Run s w s' := by
  induction w generalizing s with
  | nil => exact Option.some.inj h ▸ .nil s
  | cons e w ih =>
      obtain ⟨s₁, h₁, h₂⟩ := Option.bind_eq_some_iff.mp h
      exact .cons h₁ (ih h₂)

/-! ## What no callback touches -/

variable {bound : Bool} {s : EntryPoint}

@[simp] theorem handleLifecycleEvent_phase (e : LifecycleEvent) (s : EntryPoint) :
    (handleLifecycleEvent e s).phase = s.phase := by
  unfold handleLifecycleEvent; split <;> rfl

@[simp] theorem handleLifecycleEvent_owner (e : LifecycleEvent) (s : EntryPoint) :
    (handleLifecycleEvent e s).owner = s.owner := by
  unfold handleLifecycleEvent; split <;> rfl

@[simp] theorem handleLifecycleEvent_nativeStarted (e : LifecycleEvent) (s : EntryPoint) :
    (handleLifecycleEvent e s).nativeStarted = s.nativeStarted := by
  unfold handleLifecycleEvent; split <;> rfl

@[simp] theorem handleLifecycleEvent_ticker (e : LifecycleEvent) (s : EntryPoint) :
    (handleLifecycleEvent e s).ticker = s.ticker := by
  unfold handleLifecycleEvent; split <;> rfl

@[simp] theorem handleLifecycleEvent_native (e : LifecycleEvent) (s : EntryPoint) :
    (handleLifecycleEvent e s).native = s.native := by
  unfold handleLifecycleEvent; split <;> rfl

@[simp] theorem dispatch_phase (c : NativeCall) : (dispatch bound c s).phase = s.phase := by
  unfold dispatch; split <;> rfl

@[simp] theorem dispatch_owner (c : NativeCall) : (dispatch bound c s).owner = s.owner := by
  unfold dispatch; split <;> rfl

@[simp] theorem dispatch_received (c : NativeCall) :
    (dispatch bound c s).received = s.received := by
  unfold dispatch; split <;> rfl

@[simp] theorem dispatch_nativeStarted (c : NativeCall) :
    (dispatch bound c s).nativeStarted = s.nativeStarted := by
  unfold dispatch; split <;> rfl

@[simp] theorem dispatch_ticker (c : NativeCall) : (dispatch bound c s).ticker = s.ticker := by
  unfold dispatch; split <;> rfl

@[simp] theorem dispatch_native (c : NativeCall) :
    (dispatch bound c s).native = s.native ++ if bound then [c] else [] := by
  unfold dispatch; split <;> simp_all

@[simp] theorem dispatchStarted_phase : (dispatchStarted bound s).phase = s.phase := by
  unfold dispatchStarted; split <;> simp

@[simp] theorem dispatchStarted_received : (dispatchStarted bound s).received = s.received := by
  unfold dispatchStarted; split <;> simp

@[simp] theorem dispatchStarted_ticker : (dispatchStarted bound s).ticker = s.ticker := by
  unfold dispatchStarted; split <;> simp

/-- A callback does not move any Activity: the environment has. -/
@[simp] theorem onCallback_phase (a : Nat) (c : Callback) (s : EntryPoint) :
    (onCallback bound a c s).phase = s.phase := by
  cases c <;> simp [onCallback, onActivityCreated, onActivityResumed, onActivityPaused,
    onActivityDestroyed]

/-- A frame changes the ticker and tells the native side, and nothing else. -/
theorem doFrame_frame (bound : Bool) (t : Int) (s : EntryPoint) :
    (doFrame bound t s).phase = s.phase ∧ (doFrame bound t s).owner = s.owner ∧
      (doFrame bound t s).received = s.received ∧
      (doFrame bound t s).nativeStarted = s.nativeStarted := by
  unfold doFrame
  split
  · simp
  · exact ⟨rfl, rfl, rfl, rfl⟩

theorem vsync_frame (bound : Bool) (t : Int) (s : EntryPoint) :
    (vsync bound t s).phase = s.phase ∧ (vsync bound t s).owner = s.owner ∧
      (vsync bound t s).received = s.received ∧
      (vsync bound t s).nativeStarted = s.nativeStarted := by
  unfold vsync
  generalize s.ticker.pending = n
  generalize hs : ({ s with ticker := { s.ticker with pending := 0 } } : EntryPoint) = s₀
  have h₀ : s₀.phase = s.phase ∧ s₀.owner = s.owner ∧ s₀.received = s.received ∧
      s₀.nativeStarted = s.nativeStarted := by
    subst hs
    exact ⟨rfl, rfl, rfl, rfl⟩
  clear hs
  induction n generalizing s₀ with
  | zero => exact h₀
  | succ n ih =>
      obtain ⟨h₁, h₂, h₃, h₄⟩ := doFrame_frame bound t s₀
      exact ih _ ⟨h₁.trans h₀.1, h₂.trans h₀.2.1, h₃.trans h₀.2.2.1, h₄.trans h₀.2.2.2⟩

/-! ## The phases and the history -/

/-- The phase of an Activity in terms of the history: it exists once it was created,
and is destroyed once that was called. -/
theorem phase_history {w : List Event} (h : (system bound).Run initial w s) (a : Nat) :
    (s.phase a ≠ .absent ↔ .callback a .created ∈ w) ∧
      (s.phase a = .destroyed ↔ .callback a .destroyed ∈ w) := by
  refine h.history (P := fun w s ↦ (s.phase a ≠ .absent ↔ .callback a .created ∈ w) ∧
    (s.phase a = .destroyed ↔ .callback a .destroyed ∈ w)) ?_ ?_
  · simp [initial]
  · rintro w t e t' - ⟨ih₁, ih₂⟩ hstep
    cases e with
    | vsync time =>
        obtain rfl := Option.some.inj hstep
        rw [(vsync_frame bound time t).1]
        simp [ih₁, ih₂]
    | callback b c =>
        obtain ⟨p, hp, rfl⟩ := Option.map_eq_some_iff.mp hstep
        obtain ⟨hne, hnd, hc, hd, -, -⟩ := Phase.after_eq_some hp
        rw [onCallback_phase]
        simp only [List.mem_append, List.mem_singleton, Event.callback.injEq]
        by_cases hab : a = b
        · subst hab
          simp only [Function.update_self, true_and]
          refine ⟨iff_of_true hne ?_, ?_⟩
          · by_cases hcc : .created = c
            · exact .inr hcc
            · exact .inl (ih₁.mp fun hpa ↦ hcc (hc.mp hpa).symm)
          · rw [hd]
            refine ⟨fun h ↦ .inr h.symm, fun h ↦ ?_⟩
            rcases h with h | h
            · exact absurd (ih₂.mpr h) hnd
            · exact h.symm
        · simp only [Function.update_of_ne hab, hab, false_and, or_false]
          exact ⟨ih₁, ih₂⟩

end EntryPoint

end Konative.Android
