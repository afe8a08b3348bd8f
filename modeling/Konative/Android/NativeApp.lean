import Konative.Android.NativeBindings
import Konative.App.FollowerInput

/-!
# The application behind the native methods

`android_app()` is constructed when it is first used, and `on_started` gives it its
registry, its config and its sinks.  Before that a touch finds no sink, and a tick would
look for an `AppConfig` that is not there: it is up to Kotlin that STARTED comes first and
comes once.  With the shell of `NativeBindings` in front of it, it does, unless ticks are
bound and the lifecycle is not (`never_misused_iff`).

With every method bound, what the screen shows is what the application has
(`display_mirrors_native`).
-/

namespace Konative.App.KonativeAndroidApp

variable {F : Type} {o : FloatOps F} {codec : Codec F} {path : String}
  {s s' : KonativeAndroidApp F}

/-! ## A call of `tick` -/

/-- `follower_position()`. -/
def followerPosition (o : FloatOps F) (s : KonativeAndroidApp F) : Vec3 F :=
  (s.followerEntity.bind fun e ↦
    if s.registry.Valid e then ((s.registry.pool .transform).get? e).map Transform.position
    else none).getD ⟨o.ofInt 0, o.ofInt 0, o.ofInt 0⟩

/-- The frame thread does not begin a tick or deliver an input. -/
def Action.IsQuiet (a : Action) : Prop := a ≠ .tick ∧ a ≠ .input

/-- `tick(delta_seconds)`, from its beginning to the end of `drain_into`; other threads
take steps meanwhile. -/
def Ticks (o : FloatOps F) (codec : Codec F) (path : String) (deltaSeconds : F)
    (s s' : KonativeAndroidApp F) : Prop :=
  s.pc = .idle ∧ s'.pc = .idle ∧ ∃ reload w, (∀ a ∈ w, Action.IsQuiet a) ∧
    (system o codec path).Run (s.beginTick o deltaSeconds reload) w s'

/-- What other threads do between two calls. -/
def Passes (o : FloatOps F) (codec : Codec F) (path : String) (s s' : KonativeAndroidApp F) :
    Prop :=
  s'.pc = s.pc ∧ ∃ w, (∀ a ∈ w, Action.IsQuiet a) ∧ (system o codec path).Run s w s'

/-- What those steps leave. -/
structure Undisturbed (s s' : KonativeAndroidApp F) : Prop where
  registry : s'.registry = s.registry
  followerEntity : s'.followerEntity = s.followerEntity
  followerHasUserTarget : s'.followerHasUserTarget = s.followerHasUserTarget
  tickCount : s'.tickCount = s.tickCount

theorem Step.undisturbed {a : Action} (h : Step o codec path s a s') (ha : a.IsQuiet) :
    Undisturbed s s' := by
  cases h with
  | tick => exact absurd rfl ha.1
  | touch | windowResized => exact absurd rfl ha.2
  | skip | exchange | spawn | tryDequeue | dequeued | drained | write | written | clear | post
  | elsewhere => exact ⟨rfl, rfl, rfl, rfl⟩

theorem undisturbed_of_run {w : List Action} (h : (system o codec path).Run s w s')
    (hw : ∀ a ∈ w, Action.IsQuiet a) : Undisturbed s s' := by
  induction h with
  | nil s => exact ⟨rfl, rfl, rfl, rfl⟩
  | cons hs _ ih =>
      have h₁ := Step.undisturbed hs (hw _ List.mem_cons_self)
      have h₂ := ih fun a ha ↦ hw a (List.mem_cons_of_mem _ ha)
      exact ⟨h₂.registry.trans h₁.registry, h₂.followerEntity.trans h₁.followerEntity,
        h₂.followerHasUserTarget.trans h₁.followerHasUserTarget,
        h₂.tickCount.trans h₁.tickCount⟩

theorem Undisturbed.followerPosition (h : Undisturbed s s') (o : FloatOps F) :
    s'.followerPosition o = s.followerPosition o := by
  rw [KonativeAndroidApp.followerPosition, h.registry, h.followerEntity]
  rfl

/-- What a tick does to the registry, the follower and the count. -/
theorem Ticks.undisturbed {deltaSeconds : F} (h : Ticks o codec path deltaSeconds s s') :
    ∃ reload, Undisturbed (s.beginTick o deltaSeconds reload) s' := by
  obtain ⟨-, -, reload, w, hw, hrun⟩ := h
  exact ⟨reload, undisturbed_of_run hrun hw⟩

theorem Ticks.tickCount {deltaSeconds : F} (h : Ticks o codec path deltaSeconds s s') :
    s'.tickCount = s.tickCount + 1 := by
  obtain ⟨reload, h⟩ := h.undisturbed
  exact h.tickCount

theorem Ticks.registry {deltaSeconds : F} (h : Ticks o codec path deltaSeconds s s') :
    s'.registry = runSystems o deltaSeconds s.registry := by
  obtain ⟨reload, h⟩ := h.undisturbed
  exact h.registry

/-- A tick that has no snapshot to take and no event to drain. -/
theorem ticks_of_quiet {deltaSeconds : F} (hpc : s.pc = .idle) (hq : s.snapshotQueue = [])
    (hdue : (s.beginTick o deltaSeconds none).due = false) :
    Ticks o codec path deltaSeconds s { s.beginTick o deltaSeconds none with pc := .idle } := by
  have hempty : TickPc.dequeuing s.snapshotQueue.isEmpty = .dequeuing true := by rw [hq]; rfl
  refine ⟨hpc, rfl, none, [.onTick, .onTick, .onTick], ?_, ?_⟩
  · intro a ha
    obtain rfl := List.eq_of_mem_replicate (n := 3) ha
    exact ⟨nofun, nofun⟩
  · exact .cons (.skip _ rfl (.inl hdue)) <| .cons (.tryDequeue _ rfl) <|
      .single (.drained _ hempty)

/-- Writing targets moves nothing. -/
theorem followerPosition_aim (o : FloatOps F) {r : AppRegistry F} (s : KonativeAndroidApp F)
    (hr : r = s.registry ∨ ∃ f, r = s.registry.patch .pointerFollow f) :
    ({ s with registry := r } : KonativeAndroidApp F).followerPosition o =
      s.followerPosition o := by
  rcases hr with rfl | ⟨f, rfl⟩
  · rfl
  · unfold followerPosition
    rw [Entt.Registry.patch_pool_of_ne (by decide)]
    rfl

/-- An aim writes targets, if anything. -/
theorem aimed_cases (target : Vec3 F) (s : KonativeAndroidApp F) :
    s.aimed target = s.registry ∨ ∃ f, s.aimed target = s.registry.patch .pointerFollow f := by
  unfold aimed
  cases s.followerEntity with
  | none => exact .inl rfl
  | some e =>
      change setTarget e target s.registry = _ ∨ ∃ f, setTarget e target s.registry = _
      unfold setTarget
      split
      · exact .inr ⟨_, rfl⟩
      · exact .inl rfl

theorem followerPosition_aimFollowerAt (o : FloatOps F) (x y : F) (s : KonativeAndroidApp F) :
    (s.aimFollowerAt o x y).followerPosition o = s.followerPosition o :=
  followerPosition_aim o s (aimed_cases _ s)

theorem followerPosition_onWindowResized (o : FloatOps F) (width height : Int32)
    (s : KonativeAndroidApp F) :
    (s.onWindowResized o width height).followerPosition o = s.followerPosition o := by
  unfold onWindowResized
  apply followerPosition_aim
  split
  · exact .inl rfl
  · exact aimed_cases _ s

end Konative.App.KonativeAndroidApp

namespace Konative.Android

open App

variable {F : Type}

/-! ## The application object -/

/-- The object that `android_app()` returns. -/
structure NativeApp (F : Type) where
  /-- What `on_started` left and what became of it. -/
  app : Option (TouchedApp F)
  /-- It has ticked without an `AppConfig`, or has been started twice. -/
  misused : Bool

namespace NativeApp

/-- Constructed, and not started. -/
def fresh : NativeApp F := ⟨none, false⟩

/-- Trigger an event: without `on_started` nothing listens. -/
def trigger (f : TouchedApp F → TouchedApp F) (n : NativeApp F) : NativeApp F :=
  { n with app := n.app.map f }

/-- Whether anything listens or not. -/
@[simp] theorem trigger_misused (f : TouchedApp F → TouchedApp F) (n : NativeApp F) :
    (n.trigger f).misused = n.misused := rfl

/-- What the functions bound to the native methods do. -/
inductive Receives (o : FloatOps F) (codec : Codec F) (path : String) :
    Request F → NativeApp F → NativeApp F → Prop
  | started (event : Int32) (misused : Bool) (l : KonativeAndroidApp.Launch)
      (fs : FileSystem String) (app : KonativeAndroidApp F)
      (hevent : AndroidLifecycleEvent.ofCode event = some .started)
      (h : KonativeAndroidApp.onStarted o codec path l fs = some app) :
      Receives o codec path (.dispatchLifecycle event) ⟨none, misused⟩ ⟨some ⟨app, 0⟩, misused⟩
  | startedAgain (event : Int32) (misused : Bool) (app : TouchedApp F)
      (hevent : AndroidLifecycleEvent.ofCode event = some .started) :
      Receives o codec path (.dispatchLifecycle event) ⟨some app, misused⟩ ⟨some app, true⟩
  /-- `on_resumed`, `on_paused` and `on_destroyed` log, and so does an unknown event. -/
  | lifecycle (event : Int32) (n : NativeApp F)
      (hevent : AndroidLifecycleEvent.ofCode event ≠ some .started) :
      Receives o codec path (.dispatchLifecycle event) n n
  | tick (deltaSeconds : F) (misused : Bool) (s : TouchedApp F) (app : KonativeAndroidApp F)
      (h : s.app.Ticks o codec path deltaSeconds app) :
      Receives o codec path (.tick deltaSeconds) ⟨some s, misused⟩ ⟨some { s with app }, misused⟩
  | tickUnstarted (deltaSeconds : F) (misused : Bool) :
      Receives o codec path (.tick deltaSeconds) ⟨none, misused⟩ ⟨none, true⟩
  | touchDown (pointerId : Int32) (x y : F) (n : NativeApp F) :
      Receives o codec path (.touchDown pointerId x y) n (n.trigger (·.onTouchDown o x y))
  | touchMove (pointerId : Int32) (x y : F) (n : NativeApp F) :
      Receives o codec path (.touchMove pointerId x y) n (n.trigger (·.onTouchMove o x y))
  | touchUp (pointerId : Int32) (x y : F) (n : NativeApp F) :
      Receives o codec path (.touchUp pointerId x y) n (n.trigger TouchedApp.onTouchUp)
  | windowResized (width height : Int32) (n : NativeApp F) :
      Receives o codec path (.windowResized width height) n
        (n.trigger (·.onWindowResized o width height))
  /-- `on_window_focus_changed` and `on_key_event` log. -/
  | windowFocusChanged (hasFocus : Bool) (n : NativeApp F) :
      Receives o codec path (.windowFocusChanged hasFocus) n n
  | keyEvent (keyCode : Int32) (isDown : Bool) (n : NativeApp F) :
      Receives o codec path (.keyEvent keyCode isDown) n n

/-- The snapshot writers, if there are any. -/
inductive Passes (o : FloatOps F) (codec : Codec F) (path : String) :
    NativeApp F → NativeApp F → Prop
  | unstarted (misused : Bool) : Passes o codec path ⟨none, misused⟩ ⟨none, misused⟩
  | started (misused : Bool) (s : TouchedApp F) (app : KonativeAndroidApp F)
      (h : s.app.Passes o codec path app) :
      Passes o codec path ⟨some s, misused⟩ ⟨some { s with app }, misused⟩

/-- `tick_count()`. -/
def tickCount (n : NativeApp F) : UInt64 := n.app.elim 0 fun s ↦ s.app.tickCount

/-- `touch_event_count()`. -/
def touchEventCount (n : NativeApp F) : UInt64 := n.app.elim 0 TouchedApp.touchEventCount

/-- `follower_position()`; before `on_started` there is no follower. -/
def followerPosition (o : FloatOps F) (n : NativeApp F) : Vec3 F :=
  n.app.elim ⟨o.ofInt 0, o.ofInt 0, o.ofInt 0⟩ fun s ↦ s.app.followerPosition o

/-- The application as a native side. -/
def side (o : FloatOps F) (codec : Codec F) (path : String) : NativeSide (NativeApp F) F where
  receive := Receives o codec path
  background := Passes o codec path
  tickCount n := n.tickCount.toInt64
  touchCount n := n.touchEventCount.toInt64
  followerX n := (n.followerPosition o).x
  followerY n := (n.followerPosition o).y

end NativeApp

/-! ## STARTED comes first and once -/

namespace EntryPoint

variable {s s' : EntryPoint} {e : Event}

/-- Where there is an Activity or a frame is due, STARTED has been asked for. -/
structure Launched (s : EntryPoint) : Prop where
  phase : ∀ a, s.phase a ≠ .absent → s.nativeStarted = true
  active : s.ticker.active = true → s.nativeStarted = true

theorem launched_initial : Launched initial := ⟨fun _ h ↦ absurd rfl h, nofun⟩

/-- What a step asks of the native side: STARTED, if nobody has, or anything else. -/
theorem Launched.asked_cases (hs : s.Launched) (h : next true s e = some s') :
    s'.Launched ∧ ∃ asked, s'.native = s.native ++ asked ∧
      ((s.nativeStarted = false ∧ s'.nativeStarted = true ∧ asked = [.start]) ∨
        (s'.nativeStarted = s.nativeStarted ∧ .start ∉ asked ∧
          ∀ d, .tick d ∈ asked → s.nativeStarted = true)) := by
  cases e with
  | vsync t =>
      obtain rfl := Option.some.inj h
      obtain ⟨hphase, -, -, hstarted⟩ := vsync_frame true t s
      obtain ⟨hactive, ticks, hnative, hticks⟩ := vsync_native t s
      refine ⟨⟨fun a ha ↦ ?_, fun ha ↦ ?_⟩, ticks.map .tick, hnative, .inr ⟨hstarted, ?_, ?_⟩⟩
      · rw [hstarted]
        exact hs.phase a (hphase ▸ ha)
      · rw [hstarted]
        exact hs.active (hactive ▸ ha)
      · simp
      · intro d hd
        apply hs.active
        apply Classical.byContradiction
        intro ha
        rw [hticks (Bool.eq_false_iff.mpr ha)] at hd
        cases hd
  | callback a c =>
      obtain ⟨p, hp, rfl⟩ := Option.map_eq_some_iff.mp h
      obtain ⟨hnative, hactive, hstarted⟩ :=
        onCallback_native a c { s with phase := Function.update s.phase a p }
      obtain ⟨-, -, hcreated, -⟩ := Phase.after_eq_some hp
      -- an Activity that exists was created
      have hexists : c ≠ .created → s.nativeStarted = true := fun hc ↦
        hs.phase a fun ha ↦ hc (hcreated.mp ha)
      have hlaunched : (onCallback true a c
          { s with phase := Function.update s.phase a p }).nativeStarted = true := by
        cases c <;> first | exact hstarted | exact hstarted.trans (hexists nofun)
      refine ⟨⟨fun _ _ ↦ hlaunched, fun _ ↦ hlaunched⟩, _, hnative, ?_⟩
      cases c with
      | created =>
          by_cases hn : s.nativeStarted = true
          · exact .inr ⟨hlaunched.trans hn.symm, by simp [hn], by simp [hn]⟩
          · exact .inl ⟨Bool.eq_false_iff.mpr hn, hlaunched, by simp [hn]⟩
      | started | resumed | paused | stopped | saveInstanceState | destroyed =>
          exact .inr ⟨hstarted, by simp, by simp⟩

end EntryPoint

/-- The call is the STARTED dispatch. -/
def NativeOp.IsStart : NativeOp F → Prop
  | tell (.dispatchLifecycle event) => AndroidLifecycleEvent.ofCode event = some .started
  | _ => False

/-- The call is a tick. -/
def NativeOp.isTick : NativeOp F → Bool
  | tell (.tick _) => true
  | _ => false

/-- The call is one of the three touch calls. -/
def NativeOp.isTouch : NativeOp F → Bool
  | tell (.touchDown ..) | tell (.touchMove ..) | tell (.touchUp ..) => true
  | _ => false

/-- A request that is not STARTED, and is not a tick of an application that has not
started. -/
theorem NativeApp.Receives.keeps {o : FloatOps F} {codec : Codec F} {path : String}
    {q : Request F} {n n' : NativeApp F} (h : NativeApp.Receives o codec path q n n')
    (hstart : ¬ (NativeOp.tell q).IsStart)
    (htick : (NativeOp.tell q).isTick = true → n.app.isSome = true) :
    n'.misused = n.misused ∧ n'.app.isSome = n.app.isSome := by
  cases h with
  | started event _ _ _ _ hevent => exact absurd hevent hstart
  | startedAgain event _ _ hevent => exact absurd hevent hstart
  | tickUnstarted => exact absurd (htick rfl) nofun
  | tick => exact ⟨rfl, rfl⟩
  | touchDown | touchMove | touchUp | windowResized => exact ⟨rfl, Option.isSome_map⟩
  | lifecycle | windowFocusChanged | keyEvent => exact ⟨rfl, rfl⟩

theorem NativeApp.Passes.keeps {o : FloatOps F} {codec : Codec F} {path : String}
    {n n' : NativeApp F} (h : NativeApp.Passes o codec path n n') :
    n'.misused = n.misused ∧ n'.app.isSome = n.app.isSome := by
  cases h with
  | unstarted | started => exact ⟨rfl, rfl⟩

namespace Shell

variable {o : FloatOps F} {codec : Codec F} {path : String} {bound : NativeMethod → Bool}
  {s s' : Shell (NativeApp F) F} {e : Event F} {op : NativeOp F} {ops : List (NativeOp F)}
  {w : List (Event F)}

theorem Call.keeps (h : Call bound (NativeApp.side o codec path) s op s') (hstart : ¬ op.IsStart)
    (htick : op.isTick = true → bound .nativeTick = true → s.native.app.isSome = true) :
    s'.native.misused = s.native.misused ∧ s'.native.app.isSome = s.native.app.isSome := by
  cases h with
  | told q n hq hn =>
      refine hn.keeps hstart fun ht ↦ htick ht ?_
      cases q <;> first | exact hq | cases ht
  | asked => exact ⟨rfl, rfl⟩
  | failed =>
      unfold logNativeBindingFailureOnce
      split <;> exact ⟨rfl, rfl⟩

theorem keeps_of_calls (h : (calls bound (NativeApp.side o codec path)).Run s ops s')
    (hstart : ∀ op ∈ ops, ¬ op.IsStart)
    (htick : ∀ op ∈ ops, op.isTick = true → bound .nativeTick = true →
      s.native.app.isSome = true) :
    s'.native.misused = s.native.misused ∧ s'.native.app.isSome = s.native.app.isSome := by
  induction h with
  | nil s => exact ⟨rfl, rfl⟩
  | cons hc _ ih =>
      have h₁ := hc.keeps (hstart _ List.mem_cons_self) (htick _ List.mem_cons_self)
      have h₂ := ih (fun op hop ↦ hstart op (List.mem_cons_of_mem _ hop)) fun op hop ht hb ↦
        h₁.2.trans (htick op (List.mem_cons_of_mem _ hop) ht hb)
      exact ⟨h₂.1.trans h₁.1, h₂.2.trans h₁.2⟩

/-- The application is in order. -/
structure Ready (bound : NativeMethod → Bool) (s : Shell (NativeApp F) F) : Prop where
  launched : s.ui.Launched
  unmisused : s.native.misused = false
  started : s.native.app.isSome = (s.ui.nativeStarted && bound .nativeDispatchLifecycle)

theorem ready_initial (o : FloatOps F) (bound : NativeMethod → Bool) :
    Ready bound (initial o NativeApp.fresh) := ⟨EntryPoint.launched_initial, rfl, rfl⟩

/-- What Kotlin asks for when nothing starts. -/
theorem ops_of_asked {asked : List NativeCall} (hstart : .start ∉ asked) :
    ∀ op ∈ asked.flatMap (NativeCall.ops o), ¬ op.IsStart ∧
      (op.isTick = true → ∃ d, .tick d ∈ asked) ∧ op.isTouch = false := by
  intro op hop
  obtain ⟨c, hc, hop⟩ := List.mem_flatMap.mp hop
  cases c with
  | start => exact absurd hc hstart
  | resume | pause | destroy =>
      obtain rfl := List.mem_singleton.mp hop
      exact ⟨nofun, nofun, rfl⟩
  | tick d =>
      simp only [NativeCall.ops, List.mem_cons, List.not_mem_nil, or_false] at hop
      rcases hop with rfl | rfl | rfl | rfl <;> exact ⟨nofun, fun _ ↦ ⟨d, hc⟩, rfl⟩

theorem ops_of_compose (e : ComposeEvent F) :
    ∀ op ∈ e.ops, ¬ op.IsStart ∧ op.isTick = false := by
  intro op hop
  cases e with
  | sizeChanged | windowFocused =>
      obtain rfl := List.mem_singleton.mp hop
      exact ⟨nofun, rfl⟩
  | key keyCode type =>
      cases type with
      | unknown => cases hop
      | keyDown | keyUp =>
          obtain rfl := List.mem_singleton.mp hop
          exact ⟨nofun, rfl⟩
  | pointer changes =>
      rcases List.mem_append.mp hop with hop | hop
      · obtain ⟨change, -, hop⟩ := List.mem_flatMap.mp hop
        unfold PointerInputChange.ops at hop
        split at hop
        · obtain rfl := List.mem_singleton.mp hop
          exact ⟨nofun, rfl⟩
        · split at hop
          · obtain rfl := List.mem_singleton.mp hop
            exact ⟨nofun, rfl⟩
          · split at hop
            · obtain rfl := List.mem_singleton.mp hop
              exact ⟨nofun, rfl⟩
            · cases hop
      · obtain rfl := List.mem_singleton.mp hop
        exact ⟨nofun, rfl⟩

/-- The STARTED dispatch of an application that has not started. -/
theorem native_of_start (h : (calls bound (NativeApp.side o codec path)).Run s
      [.tell (.dispatchLifecycle AndroidLifecycleEvent.started.code)] s')
    (hs : s.native.app = none) :
    (bound .nativeDispatchLifecycle = false ∧ s'.native = s.native) ∨
      (bound .nativeDispatchLifecycle = true ∧ ∃ l fs app,
        KonativeAndroidApp.onStarted o codec path l fs = some app ∧
        s'.native = ⟨some ⟨app, 0⟩, s.native.misused⟩ ∧ s'.display = s.display) := by
  cases h with
  | cons hc h =>
      cases h
      cases hc with
      | told _ n hq hn =>
          generalize hnative : s.native = m at hn hs
          cases hn with
          | started _ misused l fs app _ happ => exact .inr ⟨hq, l, fs, app, happ, rfl, rfl⟩
          | startedAgain => cases hs
          | lifecycle _ _ hevent =>
              exact absurd (AndroidLifecycleEvent.ofCode_code .started) hevent
      | failed _ hop =>
          refine .inl ⟨hop, ?_⟩
          unfold logNativeBindingFailureOnce
          split <;> rfl

/-- The step lemma. -/
theorem Step.ready (h : Step o bound (NativeApp.side o codec path) s e s')
    (hb : bound .nativeTick = true → bound .nativeDispatchLifecycle = true)
    (hs : Ready bound s) : Ready bound s' := by
  cases h with
  | background n hn =>
      obtain ⟨hmisused, happ⟩ := NativeApp.Passes.keeps hn
      exact ⟨hs.launched, hmisused.trans hs.unmisused, happ.trans hs.started⟩
  | compose s' e hcomposed hcalls =>
      have hops := ops_of_compose e
      obtain ⟨hmisused, happ⟩ := keeps_of_calls hcalls (fun op hop ↦ (hops op hop).1)
        fun op hop ht ↦ absurd ((hops op hop).2.symm.trans ht) nofun
      have hui := ui_of_calls hcalls
      exact ⟨hui ▸ hs.launched, hmisused.trans hs.unmisused, by rw [happ, hui, hs.started]⟩
  | activity s' e ui asked hnext hasked hcalls =>
      obtain ⟨hlaunched, asked', hasked', hcases⟩ := hs.launched.asked_cases hnext
      obtain rfl := List.append_cancel_left (hasked.symm.trans hasked')
      have hui : s'.ui = ui := ui_of_calls hcalls
      rcases hcases with ⟨hfalse, htrue, rfl⟩ | ⟨hsame, hstart, htick⟩
      · have hnone : s.native.app = none := by
          have h := hs.started
          rw [hfalse, Bool.false_and] at h
          exact Option.isSome_eq_false_iff.mp h |> Option.isNone_iff_eq_none.mp
        rcases native_of_start hcalls hnone with ⟨hl, hn⟩ | ⟨hl, l, fs, app, -, hn, -⟩
        · refine ⟨hui ▸ hlaunched, ?_, ?_⟩
          · rw [hn]
            exact hs.unmisused
          · rw [hn, hl, Bool.and_false]
            exact congrArg Option.isSome hnone
        · refine ⟨hui ▸ hlaunched, ?_, ?_⟩
          · rw [hn]
            exact hs.unmisused
          · rw [hn, hl, hui, htrue]
            rfl
      · have hops := ops_of_asked (o := o) hstart
        obtain ⟨hmisused, happ⟩ := keeps_of_calls hcalls (fun op hop ↦ (hops op hop).1)
          fun op hop ht htb ↦ by
            obtain ⟨d, hd⟩ := (hops op hop).2.1 ht
            change s.native.app.isSome = true
            rw [hs.started, htick d hd, hb htb]
            rfl
        refine ⟨hui ▸ hlaunched, hmisused.trans hs.unmisused, ?_⟩
        rw [happ, hui, hsame]
        exact hs.started

theorem ready_of_run (hb : bound .nativeTick = true → bound .nativeDispatchLifecycle = true)
    (h : (system o bound (NativeApp.side o codec path) .fresh).Run (initial o .fresh) w s) :
    Ready bound s :=
  h.invariant (I := Ready bound) (fun hs hr ↦ Step.ready hs hb hr) (ready_initial o bound)

/-! ### Ticks without the lifecycle -/

section Unstarted

variable (o codec path) (hlifecycle : bound .nativeDispatchLifecycle = false)
  (htick : bound .nativeTick = true)
include hlifecycle htick

/-- An application that is never told of a start takes every call, and a tick for the last
time. -/
theorem exists_call_unstarted (op : NativeOp F) (hs : s.native.app = none) :
    ∃ s', Call bound (NativeApp.side o codec path) s op s' ∧ s'.native.app = none ∧
      s'.native.misused = (s.native.misused || op.isTick) := by
  have hnative : s.native = ⟨none, s.native.misused⟩ := by rw [← hs]
  cases hop : bound op.method with
  | false =>
      have hno : op.isTick = false := by
        cases op with
        | ask => rfl
        | tell q =>
            cases q <;> first | rfl | exact absurd (htick.symm.trans hop) nofun
      refine ⟨_, .failed s op hop, ?_⟩
      rw [hno, Bool.or_false]
      unfold logNativeBindingFailureOnce
      split <;> exact ⟨hs, rfl⟩
  | true =>
      cases op with
      | ask q => exact ⟨_, .asked s q hop, hs, (Bool.or_false _).symm⟩
      | tell q =>
          have htold {n : NativeApp F}
              (hn : NativeApp.Receives o codec path q ⟨none, s.native.misused⟩ n) :
              Call bound (NativeApp.side o codec path) s (.tell q) { s with native := n } :=
            .told s q n hop (hnative ▸ hn)
          cases q with
          | dispatchLifecycle => exact absurd (hlifecycle.symm.trans hop) nofun
          | tick dt => exact ⟨_, htold (.tickUnstarted dt _), rfl, (Bool.or_true _).symm⟩
          | touchDown pointerId x y =>
              exact ⟨_, htold (.touchDown pointerId x y _), rfl, (Bool.or_false _).symm⟩
          | touchMove pointerId x y =>
              exact ⟨_, htold (.touchMove pointerId x y _), rfl, (Bool.or_false _).symm⟩
          | touchUp pointerId x y =>
              exact ⟨_, htold (.touchUp pointerId x y _), rfl, (Bool.or_false _).symm⟩
          | windowResized width height =>
              exact ⟨_, htold (.windowResized width height _), rfl, (Bool.or_false _).symm⟩
          | windowFocusChanged hasFocus =>
              exact ⟨_, htold (.windowFocusChanged hasFocus _), rfl, (Bool.or_false _).symm⟩
          | keyEvent keyCode isDown =>
              exact ⟨_, htold (.keyEvent keyCode isDown _), rfl, (Bool.or_false _).symm⟩

theorem exists_calls_unstarted (ops : List (NativeOp F)) (hs : s.native.app = none) :
    ∃ s', (calls bound (NativeApp.side o codec path)).Run s ops s' ∧ s'.native.app = none ∧
      s'.native.misused = (s.native.misused || ops.any NativeOp.isTick) := by
  induction ops generalizing s with
  | nil => exact ⟨s, .nil s, hs, (Bool.or_false _).symm⟩
  | cons op ops ih =>
      obtain ⟨t, ht, happ, hmisused⟩ :=
        exists_call_unstarted o codec path hlifecycle htick op hs
      obtain ⟨s', hs', happ', hmisused'⟩ := ih happ
      refine ⟨s', .cons ht hs', happ', ?_⟩
      rw [hmisused', hmisused, List.any_cons, Bool.or_assoc]

theorem exists_run_unstarted {x : EntryPoint × List (NativeOp F)} (hs : s.native.app = none)
    (h : attempted o s.ui w = some x) :
    ∃ s', (system o bound (NativeApp.side o codec path) .fresh).Run s w s' ∧
      s'.native.misused = (s.native.misused || x.2.any NativeOp.isTick) := by
  induction w generalizing s x with
  | nil =>
      obtain rfl := Option.some.inj h
      exact ⟨s, .nil s, (Bool.or_false _).symm⟩
  | cons e w ih =>
      obtain ⟨⟨ui, ops⟩, h₁, h⟩ := Option.bind_eq_some_iff.mp h
      obtain ⟨y, hy, rfl⟩ := Option.map_eq_some_iff.mp h
      have hstep : ∃ t, Step o bound (NativeApp.side o codec path) s e t ∧ t.ui = ui ∧
          t.native.app = none ∧
          t.native.misused = (s.native.misused || ops.any NativeOp.isTick) := by
        cases e with
        | activity e =>
            obtain ⟨ui', hnext, hx⟩ := Option.map_eq_some_iff.mp h₁
            obtain ⟨rfl, rfl⟩ := Prod.mk.inj hx
            obtain ⟨asked, hasked⟩ := EntryPoint.native_extends hnext
            obtain ⟨t, ht, happ, hmisused⟩ := exists_calls_unstarted o codec path
              (s := { s with ui := ui' }) hlifecycle htick (asked.flatMap (NativeCall.ops o)) hs
            refine ⟨t, .activity s t e ui' asked hnext hasked.symm ht, ui_of_calls ht, happ, ?_⟩
            rw [hmisused, ← hasked, List.drop_left]
        | compose e =>
            rw [asks, Option.ite_none_right_eq_some] at h₁
            obtain ⟨hcomposed, h₁⟩ := h₁
            obtain ⟨rfl, rfl⟩ := Prod.mk.inj (Option.some.inj h₁)
            obtain ⟨t, ht, happ, hmisused⟩ :=
              exists_calls_unstarted o codec path hlifecycle htick e.ops hs
            exact ⟨t, .compose s t e hcomposed ht, ui_of_calls ht, happ, hmisused⟩
        | background =>
            obtain ⟨rfl, rfl⟩ := Prod.mk.inj (Option.some.inj h₁)
            have hnative : s.native = ⟨none, s.native.misused⟩ := by rw [← hs]
            exact ⟨_, .background s ⟨none, s.native.misused⟩ (hnative ▸ .unstarted _), rfl, rfl,
              (Bool.or_false _).symm⟩
      obtain ⟨t, ht, rfl, happ, hmisused⟩ := hstep
      obtain ⟨s', hs', hmisused'⟩ := ih happ hy
      refine ⟨s', .cons ht hs', ?_⟩
      rw [hmisused', hmisused, List.any_append, Bool.or_assoc]

end Unstarted

/-- In no run, however the events and the threads interleave, is the application ticked
before it was started or started twice: as long as ticks are not bound without the
lifecycle.  `JNI_OnLoad` has the lifecycle first in its table. -/
theorem never_misused_iff (o : FloatOps F) (codec : Codec F) (path : String)
    (bound : NativeMethod → Bool) :
    (∀ (w : List (Event F)) (s : Shell (NativeApp F) F),
      (system o bound (NativeApp.side o codec path) .fresh).Run (initial o .fresh) w s →
        s.native.misused = false) ↔
      (bound .nativeTick = true → bound .nativeDispatchLifecycle = true) := by
  constructor
  · intro h htick
    by_contra hlifecycle
    -- a launch and a frame
    obtain ⟨⟨ui, ops⟩, hops, hany⟩ : ∃ x, attempted o .initial
        [.activity (.callback 0 .created), .activity (.callback 0 .started),
          .activity (.callback 0 .resumed), .activity (.vsync 16)] = some x ∧
        x.2.any NativeOp.isTick = true := ⟨_, rfl, rfl⟩
    obtain ⟨s, hs, hmisused⟩ := exists_run_unstarted o codec path (s := initial o .fresh)
      (Bool.eq_false_iff.mpr hlifecycle) htick rfl hops
    rw [hany, Bool.or_true] at hmisused
    exact Bool.false_ne_true ((h _ s hs).symm.trans hmisused)
  · intro hb w s h
    exact (ready_of_run hb h).unmisused

end Shell

/-! ## What is shown is what there is -/

namespace NativeApp

variable {o : FloatOps F} {codec : Codec F} {path : String} {n n' : NativeApp F} {q : Request F}

/-- What changes the answers to the queries: ticks, touches, and the follower's beginning. -/
theorem Receives.answers (h : Receives o codec path q n n') :
    ((NativeOp.tell q).isTick = false → n'.tickCount = n.tickCount) ∧
      ((NativeOp.tell q).isTouch = false → n'.touchEventCount = n.touchEventCount) ∧
      ((NativeOp.tell q).isTick = false → ¬ (NativeOp.tell q).IsStart →
        n'.followerPosition o = n.followerPosition o) := by
  have htrigger (f : TouchedApp F → TouchedApp F)
      (hcount : ∀ s, (f s).app.tickCount = s.app.tickCount)
      (hposition : ∀ s, (f s).app.followerPosition o = s.app.followerPosition o) :
      (n.trigger f).tickCount = n.tickCount ∧
        (n.trigger f).followerPosition o = n.followerPosition o := by
    obtain ⟨_ | s, misused⟩ := n
    · exact ⟨rfl, rfl⟩
    · exact ⟨hcount s, hposition s⟩
  cases h with
  | started event _ _ _ _ hevent h =>
      obtain ⟨-, e, b, happ⟩ := KonativeAndroidApp.onStarted_eq_some h
      refine ⟨fun _ ↦ ?_, fun _ ↦ rfl, fun _ hstart ↦ absurd hevent hstart⟩
      exact congrArg KonativeAndroidApp.tickCount happ
  | startedAgain | lifecycle | windowFocusChanged | keyEvent =>
      exact ⟨fun _ ↦ rfl, fun _ ↦ rfl, fun _ _ ↦ rfl⟩
  | tick _ _ s app h => exact ⟨nofun, fun _ ↦ rfl, nofun⟩
  | tickUnstarted => exact ⟨nofun, fun _ ↦ rfl, nofun⟩
  | touchDown _ x y =>
      obtain ⟨hcount, hposition⟩ := htrigger (·.onTouchDown o x y) (fun _ ↦ rfl)
        fun s ↦ s.app.followerPosition_aimFollowerAt o x y
      exact ⟨fun _ ↦ hcount, nofun, fun _ _ ↦ hposition⟩
  | touchMove _ x y =>
      obtain ⟨hcount, hposition⟩ := htrigger (·.onTouchMove o x y) (fun _ ↦ rfl)
        fun s ↦ s.app.followerPosition_aimFollowerAt o x y
      exact ⟨fun _ ↦ hcount, nofun, fun _ _ ↦ hposition⟩
  | touchUp _ _ _ =>
      obtain ⟨hcount, hposition⟩ := htrigger TouchedApp.onTouchUp (fun _ ↦ rfl) fun _ ↦ rfl
      exact ⟨fun _ ↦ hcount, nofun, fun _ _ ↦ hposition⟩
  | windowResized width height =>
      obtain ⟨hcount, hposition⟩ := htrigger (·.onWindowResized o width height) (fun _ ↦ rfl)
        fun s ↦ s.app.followerPosition_onWindowResized o width height
      refine ⟨fun _ ↦ hcount, fun _ ↦ ?_, fun _ _ ↦ hposition⟩
      obtain ⟨_ | s, misused⟩ := n <;> rfl

/-- A tick and a touch of a started application are counted. -/
theorem Receives.counts (h : Receives o codec path q n n') (hs : n.app.isSome = true) :
    ((NativeOp.tell q).isTick = true → n'.tickCount = n.tickCount + 1) ∧
      ((NativeOp.tell q).isTouch = true → n'.touchEventCount = n.touchEventCount + 1) := by
  obtain ⟨_ | s, misused⟩ := n
  · cases hs
  · cases h with
    | tick _ _ _ app h => exact ⟨fun _ ↦ h.tickCount, nofun⟩
    | touchDown | touchMove | touchUp => exact ⟨nofun, fun _ ↦ rfl⟩
    | startedAgain | lifecycle | windowResized | windowFocusChanged | keyEvent =>
        exact ⟨nofun, nofun⟩

/-- Between two calls the frame thread is between two ticks. -/
def Idle (n : NativeApp F) : Prop := ∀ s, n.app = some s → s.app.pc = .idle

theorem Receives.idle (h : Receives o codec path q n n') (hn : n.Idle) : n'.Idle := by
  cases h with
  | started _ _ _ _ _ _ h =>
      obtain ⟨-, e, b, happ⟩ := KonativeAndroidApp.onStarted_eq_some h
      intro s' hs'
      obtain rfl := Option.some.inj hs'
      exact congrArg KonativeAndroidApp.pc happ
  | startedAgain | lifecycle | tickUnstarted | windowFocusChanged | keyEvent => exact hn
  | tick _ _ s app h =>
      intro s' hs'
      obtain rfl := Option.some.inj hs'
      exact h.2.1
  | touchDown | touchMove | touchUp | windowResized =>
      intro s hs
      obtain ⟨s₀, hs₀, rfl⟩ := Option.map_eq_some_iff.mp hs
      exact hn s₀ hs₀

/-- The other threads change no answer. -/
theorem Passes.answers (h : Passes o codec path n n') (hn : n.Idle) :
    n'.tickCount = n.tickCount ∧ n'.touchEventCount = n.touchEventCount ∧
      n'.followerPosition o = n.followerPosition o ∧ n'.Idle := by
  cases h with
  | unstarted => exact ⟨rfl, rfl, rfl, hn⟩
  | started _ s app h =>
      obtain ⟨hpc, w, hw, hrun⟩ := h
      have hsame := KonativeAndroidApp.undisturbed_of_run hrun hw
      refine ⟨hsame.tickCount, rfl, hsame.followerPosition o, ?_⟩
      intro s' hs'
      obtain rfl := Option.some.inj hs'
      exact hpc.trans (hn s rfl)

end NativeApp

namespace Shell

variable {o : FloatOps F} {codec : Codec F} {path : String} {bound : NativeMethod → Bool}
  {s s' : Shell (NativeApp F) F} {e : Event F} {op : NativeOp F} {ops : List (NativeOp F)}
  {w : List (Event F)}

/-- `RegisterNatives` was `JNI_OK`. -/
def allBound (_ : NativeMethod) : Bool := true

/-- One call counts for itself. -/
theorem Call.counts (h : Call bound (NativeApp.side o codec path) s op s')
    (hop : bound op.method = true) (hstart : ¬ op.IsStart)
    (happ : op.isTick = true ∨ op.isTouch = true → s.native.app.isSome = true) :
    s'.native.tickCount = s.native.tickCount + UInt64.ofNat (if op.isTick then 1 else 0) ∧
      s'.native.touchEventCount =
        s.native.touchEventCount + UInt64.ofNat (if op.isTouch then 1 else 0) ∧
      (s.native.Idle → s'.native.Idle) := by
  cases h with
  | asked => exact ⟨(UInt64.add_zero _).symm, (UInt64.add_zero _).symm, id⟩
  | failed _ hfail => exact absurd (hop.symm.trans hfail) nofun
  | told q n _ hn =>
      obtain ⟨htick, htouch, -⟩ := NativeApp.Receives.answers hn
      refine ⟨?_, ?_, NativeApp.Receives.idle hn⟩
      · cases hq : (NativeOp.tell q).isTick with
        | false => exact (htick hq).trans (UInt64.add_zero _).symm
        | true => exact (NativeApp.Receives.counts hn (happ (.inl hq))).1 hq
      · cases hq : (NativeOp.tell q).isTouch with
        | false => exact (htouch hq).trans (UInt64.add_zero _).symm
        | true => exact (NativeApp.Receives.counts hn (happ (.inr hq))).2 hq

theorem counts_of_calls (h : (calls allBound (NativeApp.side o codec path)).Run s ops s')
    (hstart : ∀ op ∈ ops, ¬ op.IsStart)
    (happ : ∀ op ∈ ops, op.isTick = true ∨ op.isTouch = true → s.native.app.isSome = true) :
    s'.native.tickCount = s.native.tickCount + UInt64.ofNat (ops.countP NativeOp.isTick) ∧
      s'.native.touchEventCount =
        s.native.touchEventCount + UInt64.ofNat (ops.countP NativeOp.isTouch) ∧
      (s.native.Idle → s'.native.Idle) := by
  induction h with
  | nil s => exact ⟨(UInt64.add_zero _).symm, (UInt64.add_zero _).symm, id⟩
  | @cons s t s' op ops hc _ ih =>
      obtain ⟨htick, htouch, hidle⟩ :=
        hc.counts rfl (hstart op List.mem_cons_self) (happ op List.mem_cons_self)
      have hsame := (hc.keeps (hstart op List.mem_cons_self) fun ht _ ↦
        happ op List.mem_cons_self (.inl ht)).2
      obtain ⟨htick', htouch', hidle'⟩ := ih
        (fun op hop ↦ hstart op (List.mem_cons_of_mem _ hop)) fun op hop hq ↦
          hsame.trans (happ op (List.mem_cons_of_mem _ hop) hq)
      refine ⟨?_, ?_, hidle' ∘ hidle⟩
      · rw [htick', htick, UInt64.add_assoc, ← UInt64.ofNat_add, List.countP_cons, Nat.add_comm]
      · rw [htouch', htouch, UInt64.add_assoc, ← UInt64.ofNat_add, List.countP_cons, Nat.add_comm]

theorem keeps_tickCount {q : Request F} (h : (NativeOp.tell q).isTick = false) :
    (NativeApp.side o codec path).Keeps .tickCount q :=
  fun _ _ _ hr ↦ congrArg UInt64.toInt64 ((NativeApp.Receives.answers hr).1 h)

theorem keeps_touchCount {q : Request F} (h : (NativeOp.tell q).isTouch = false) :
    (NativeApp.side o codec path).Keeps .touchCount q :=
  fun _ _ _ hr ↦ congrArg UInt64.toInt64 ((NativeApp.Receives.answers hr).2.1 h)

/-- The two coordinates of the follower. -/
def OfFollower (q : Query) : Prop := q = .followerX ∨ q = .followerY

theorem keeps_follower {q : Request F} {q' : Query} (hq : OfFollower q')
    (h : (NativeOp.tell q).isTick = false) (hstart : ¬ (NativeOp.tell q).IsStart) :
    (NativeApp.side o codec path).Keeps q' q := by
  intro n n' d hr
  have hposition := (NativeApp.Receives.answers hr).2.2 h hstart
  rcases hq with rfl | rfl
  · exact congrArg Vec3.x hposition
  · exact congrArg Vec3.y hposition

/-- A frame asks for what a tick may change, right after it. -/
theorem askedAfter_tick {N : Type} {side : NativeSide N F} {q : Query} (hq : q ≠ .touchCount)
    (d : Int) :
    AskedAfter side q (NativeCall.ops o (.tick d)) := by
  have hasks : ∀ ops : List (NativeOp F), (∀ r, .tell r ∉ ops) → AskedAfter side q ops :=
    fun ops h ↦ askedAfter_of_keeps fun r hr ↦ absurd hr (h r)
  refine (hasks [.ask .tickCount, .ask .followerX, .ask .followerY] (by simp)).cons fun _ _ ↦ ?_
  right
  cases q with
  | touchCount => exact absurd rfl hq
  | tickCount | followerX | followerY => simp

/-- A list of calls of `EntryPoint` asks in time for whatever only ticks change. -/
theorem askedAfter_asked {q : Query} (hq : q ≠ .touchCount) {asked : List NativeCall}
    (h : ∀ c ∈ asked, ∀ r : Request F, NativeOp.tell r ∈ NativeCall.ops o c →
      (NativeOp.tell r).isTick = false → (NativeApp.side o codec path).Keeps q r) :
    AskedAfter (NativeApp.side o codec path) q (asked.flatMap (NativeCall.ops o)) := by
  refine askedAfter_flatMap fun c hc ↦ ?_
  cases c with
  | tick d => exact askedAfter_tick hq d
  | start | resume | pause | destroy =>
      refine askedAfter_of_keeps fun r hr ↦ h _ hc r hr ?_
      rw [List.mem_singleton.mp hr]
      rfl

/-- So does what `KonativeRootComposable` is told, for anything. -/
theorem askedAfter_compose (e : ComposeEvent F) (q : Query) :
    AskedAfter (NativeApp.side o codec path) q e.ops := by
  have hops := ops_of_compose e
  have htick : ∀ r, .tell r ∈ e.ops → (NativeOp.tell r).isTick = false := fun r hr ↦ (hops _ hr).2
  have hstart : ∀ r, .tell r ∈ e.ops → ¬ (NativeOp.tell r).IsStart := fun r hr ↦ (hops _ hr).1
  cases q with
  | tickCount => exact askedAfter_of_keeps fun r hr ↦ keeps_tickCount (htick r hr)
  | followerX =>
      exact askedAfter_of_keeps fun r hr ↦ keeps_follower (.inl rfl) (htick r hr) (hstart r hr)
  | followerY =>
      exact askedAfter_of_keeps fun r hr ↦ keeps_follower (.inr rfl) (htick r hr) (hstart r hr)
  | touchCount =>
      cases e with
      | pointer => exact askedAfter_concat _
      | sizeChanged | windowFocused =>
          refine askedAfter_of_keeps fun r hr ↦ keeps_touchCount ?_
          rw [List.mem_singleton.mp hr]
          rfl
      | key keyCode type =>
          cases type with
          | unknown => exact askedAfter_nil
          | keyDown | keyUp =>
              refine askedAfter_of_keeps fun r hr ↦ keeps_touchCount ?_
              rw [List.mem_singleton.mp hr]
              rfl

/-- The state after a history that has asked for these calls. -/
structure Mirrors (o : FloatOps F) (codec : Codec F) (path : String) (ops : List (NativeOp F))
    (s : Shell (NativeApp F) F) : Prop where
  ready : Ready allBound s
  idle : s.native.Idle
  ticks : s.native.tickCount = UInt64.ofNat (ops.countP NativeOp.isTick)
  touches : s.native.touchEventCount = UInt64.ofNat (ops.countP NativeOp.isTouch)
  tickCount : s.Shown (NativeApp.side o codec path) .tickCount
  touchCount : s.Shown (NativeApp.side o codec path) .touchCount
  /-- The follower has been asked for with the first frame. -/
  follower : ∀ q, OfFollower q → 0 < ops.countP NativeOp.isTick →
    s.Shown (NativeApp.side o codec path) q
  framed : 0 < ops.countP NativeOp.isTick → s.ui.nativeStarted = true

theorem mirrors_initial : Mirrors o codec path [] (initial o .fresh) where
  ready := ready_initial o allBound
  idle := nofun
  ticks := rfl
  touches := rfl
  tickCount := rfl
  touchCount := rfl
  follower _ _ h := absurd h (Nat.lt_irrefl 0)
  framed h := absurd h (Nat.lt_irrefl 0)

/-- A display shows the answer after any calls that ask in time. -/
theorem Mirrors.shown {q : Query} {ui : EntryPoint}
    (hq : s.Shown (NativeApp.side o codec path) q)
    (hcalls : (calls allBound (NativeApp.side o codec path)).Run { s with ui } ops s')
    (hops : AskedAfter (NativeApp.side o codec path) q ops) :
    s'.Shown (NativeApp.side o codec path) q := shown_of_calls hcalls rfl hops (.inl hq)

/-- Ticks are followed by the questions for the follower. -/
theorem ask_mem_of_tick {q : Query} (hq : q ≠ .touchCount) {asked : List NativeCall}
    (h : 0 < (asked.flatMap (NativeCall.ops o)).countP NativeOp.isTick) :
    .ask q ∈ asked.flatMap (NativeCall.ops o) := by
  obtain ⟨op, hop, ht⟩ := List.countP_pos_iff.mp h
  obtain ⟨c, hc, hop⟩ := List.mem_flatMap.mp hop
  refine List.mem_flatMap.mpr ⟨c, hc, ?_⟩
  cases c with
  | tick d =>
      cases q with
      | touchCount => exact absurd rfl hq
      | tickCount | followerX | followerY => simp [NativeCall.ops]
  | start | resume | pause | destroy =>
      rw [List.mem_singleton.mp hop] at ht
      cases ht

/-- The application starts: nothing has been counted, and no frame has been. -/
theorem Mirrors.start {ui : EntryPoint} (h : Mirrors o codec path ops s)
    (hfalse : s.ui.nativeStarted = false) (hready : Ready allBound s')
    (hcalls : (calls allBound (NativeApp.side o codec path)).Run { s with ui }
      ([NativeCall.start].flatMap (NativeCall.ops o)) s') :
    Mirrors o codec path (ops ++ [NativeCall.start].flatMap (NativeCall.ops o)) s' := by
  have hnone : s.native.app = none := by
    have hstarted := h.ready.started
    rw [hfalse, Bool.false_and] at hstarted
    exact Option.isNone_iff_eq_none.mp (Option.isSome_eq_false_iff.mp hstarted)
  have hnative : s.native = ⟨none, s.native.misused⟩ := by rw [← hnone]
  have hcount (p : NativeOp F → Bool)
      (hp : p (.tell (.dispatchLifecycle AndroidLifecycleEvent.started.code)) = false) :
      (ops ++ [NativeCall.start].flatMap (NativeCall.ops o)).countP p = ops.countP p := by
    rw [List.countP_append]
    exact congrArg (ops.countP p + ·) (List.countP_cons_of_neg (by rw [hp]; exact nofun))
  have htick := hcount NativeOp.isTick rfl
  have htouch := hcount NativeOp.isTouch rfl
  have hno : ¬ 0 < ops.countP NativeOp.isTick := fun hpos ↦
    Bool.false_ne_true (hfalse.symm.trans (h.framed hpos))
  obtain ⟨hunbound, -⟩ | ⟨-, l, fs, app, happ, hn, -⟩ := native_of_start hcalls hnone
  · cases hunbound
  obtain ⟨-, e, b, heq⟩ := KonativeAndroidApp.onStarted_eq_some happ
  refine ⟨hready, ?_, ?_, ?_, ?_, ?_, ?_, ?_⟩
  · intro a ha
    rw [hn] at ha
    obtain rfl := Option.some.inj ha
    exact congrArg KonativeAndroidApp.pc heq
  · rw [htick, ← h.ticks, hn, hnative]
    exact congrArg KonativeAndroidApp.tickCount heq
  · rw [htouch, ← h.touches, hn, hnative]
    rfl
  · exact Mirrors.shown h.tickCount hcalls
      (askedAfter_of_keeps fun r hr ↦ keeps_tickCount (by rw [List.mem_singleton.mp hr]; rfl))
  · exact Mirrors.shown h.touchCount hcalls
      (askedAfter_of_keeps fun r hr ↦ keeps_touchCount (by rw [List.mem_singleton.mp hr]; rfl))
  · intro q _ hpos
    exact absurd (htick ▸ hpos) hno
  · intro hpos
    exact absurd (htick ▸ hpos) hno

/-- The step lemma. -/
theorem Mirrors.step (h : Mirrors o codec path ops s)
    (hs : Step o allBound (NativeApp.side o codec path) s e s') :
    ∃ ops', asks o s.ui e = some (s'.ui, ops') ∧ Mirrors o codec path (ops ++ ops') s' := by
  have hready := Step.ready hs (fun _ ↦ rfl) h.ready
  cases hs with
  | background n hn =>
      obtain ⟨htick, htouch, hposition, hidle⟩ := NativeApp.Passes.answers hn h.idle
      refine ⟨[], rfl, ?_⟩
      rw [List.append_nil]
      refine ⟨hready, hidle, htick.trans h.ticks, htouch.trans h.touches, ?_, ?_, ?_, h.framed⟩
      · exact h.tickCount.of_native fun _ ↦ congrArg UInt64.toInt64 htick
      · exact h.touchCount.of_native fun _ ↦ congrArg UInt64.toInt64 htouch
      · intro q hq hpos
        refine (h.follower q hq hpos).of_native fun _ ↦ ?_
        rcases hq with rfl | rfl
        · exact congrArg Vec3.x hposition
        · exact congrArg Vec3.y hposition
  | compose s' e hcomposed hcalls =>
      have hops := ops_of_compose e
      have hui := ui_of_calls hcalls
      have happ : s.native.app.isSome = true := by rw [h.ready.started, hcomposed]; rfl
      obtain ⟨htick, htouch, hidle⟩ :=
        counts_of_calls hcalls (fun op hop ↦ (hops op hop).1) fun _ _ _ ↦ happ
      have hno : e.ops.countP NativeOp.isTick = 0 :=
        List.countP_eq_zero.mpr fun op hop ↦ by rw [(hops op hop).2]; exact Bool.false_ne_true
      refine ⟨e.ops, by rw [asks, if_pos hcomposed, hui], hready, hidle h.idle, ?_, ?_, ?_, ?_,
        ?_, ?_⟩
      · rw [htick, h.ticks, List.countP_append, UInt64.ofNat_add]
      · rw [htouch, h.touches, List.countP_append, UInt64.ofNat_add]
      · exact Mirrors.shown h.tickCount hcalls (askedAfter_compose e _)
      · exact Mirrors.shown h.touchCount hcalls (askedAfter_compose e _)
      · intro q hq hpos
        rw [List.countP_append, hno, Nat.add_zero] at hpos
        exact Mirrors.shown (h.follower q hq hpos) hcalls (askedAfter_compose e q)
      · rw [hui]
        exact fun _ ↦ hcomposed
  | activity s' e ui asked hnext hasked hcalls =>
      obtain ⟨-, asked', hasked', hcases⟩ := h.ready.launched.asked_cases hnext
      obtain rfl := List.append_cancel_left (hasked.symm.trans hasked')
      have hui : s'.ui = ui := ui_of_calls hcalls
      refine ⟨asked.flatMap (NativeCall.ops o), ?_, ?_⟩
      · rw [asks, hnext, Option.map_some, hasked, List.drop_left, hui]
      rcases hcases with ⟨hfalse, -, rfl⟩ | ⟨hsame, hstart, htick⟩
      · exact h.start hfalse hready hcalls
      · have hops := ops_of_asked (o := o) hstart
        have happ : ∀ op ∈ asked.flatMap (NativeCall.ops o),
            op.isTick = true ∨ op.isTouch = true → s.native.app.isSome = true := by
          rintro op hop (ht | ht)
          · obtain ⟨d, hd⟩ := (hops op hop).2.1 ht
            rw [h.ready.started, htick d hd]
            rfl
          · exact absurd ((hops op hop).2.2.symm.trans ht) Bool.false_ne_true
        obtain ⟨hticks, htouches, hidle⟩ :=
          counts_of_calls hcalls (fun op hop ↦ (hops op hop).1) happ
        refine ⟨hready, hidle h.idle, ?_, ?_, ?_, ?_, ?_, ?_⟩
        · rw [hticks, List.countP_append, UInt64.ofNat_add, ← h.ticks]
        · rw [htouches, List.countP_append, UInt64.ofNat_add, ← h.touches]
        · exact Mirrors.shown h.tickCount hcalls
            (askedAfter_asked (q := .tickCount) (by decide) fun _ _ _ _ ht ↦ keeps_tickCount ht)
        · refine Mirrors.shown h.touchCount hcalls (askedAfter_of_keeps fun r hr ↦ ?_)
          exact keeps_touchCount (hops _ hr).2.2
        · intro q hq hpos
          have hne : q ≠ .touchCount := by rcases hq with rfl | rfl <;> decide
          have hasks : AskedAfter (NativeApp.side o codec path) q
              (asked.flatMap (NativeCall.ops o)) :=
            askedAfter_asked hne fun c hc r hr ht ↦
              keeps_follower hq ht (hops _ (List.mem_flatMap.mpr ⟨c, hc, hr⟩)).1
          -- there has been a tick before, or there is one now and the question after it
          refine shown_of_calls hcalls rfl hasks ?_
          rw [List.countP_append] at hpos
          rcases Nat.eq_zero_or_pos (ops.countP NativeOp.isTick) with hzero | hbefore
          · rw [hzero, Nat.zero_add] at hpos
            exact .inr (ask_mem_of_tick hne hpos)
          · exact .inl (h.follower q hq hbefore)
        · intro hpos
          rw [List.countP_append] at hpos
          rw [hui, hsame]
          rcases Nat.eq_zero_or_pos (ops.countP NativeOp.isTick) with hzero | hbefore
          · rw [hzero, Nat.zero_add] at hpos
            obtain ⟨op, hop, ht⟩ := List.countP_pos_iff.mp hpos
            obtain ⟨d, hd⟩ := (hops op hop).2.1 ht
            exact htick d hd
          · exact h.framed hbefore

theorem mirrors_of_run
    (h : (system o allBound (NativeApp.side o codec path) .fresh).Run (initial o .fresh) w s) :
    ∃ ops, attempted o .initial w = some (s.ui, ops) ∧ Mirrors o codec path ops s := by
  refine h.history (P := fun w s ↦ ∃ ops, attempted o .initial w = some (s.ui, ops) ∧
    Mirrors o codec path ops s) ⟨[], rfl, mirrors_initial⟩ ?_
  rintro w t e t' - ⟨ops, hops, hm⟩ hs
  obtain ⟨ops', hasks, hm⟩ := hm.step hs
  exact ⟨ops ++ ops', attempted_snoc hops hasks, hm⟩

/-- In every run in which the methods are bound, however the events and the threads
interleave: the two counts on display are those of the application, which has counted
every frame's tick and every change of a pointer, and from the first frame on the dot is
where its follower is. -/
theorem display_mirrors_native
    (h : (system o allBound (NativeApp.side o codec path) .fresh).Run (initial o .fresh) w s) :
    ∃ ops, attempted o .initial w = some (s.ui, ops) ∧
      s.native.tickCount = UInt64.ofNat (ops.countP NativeOp.isTick) ∧
      s.native.touchEventCount = UInt64.ofNat (ops.countP NativeOp.isTouch) ∧
      s.display.tickCountDisplay = s.native.tickCount.toInt64 ∧
      s.display.touchCountDisplay = s.native.touchEventCount.toInt64 ∧
      (0 < ops.countP NativeOp.isTick →
        s.display.followerXDisplay = (s.native.followerPosition o).x ∧
        s.display.followerYDisplay = (s.native.followerPosition o).y) := by
  obtain ⟨ops, hops, hm⟩ := mirrors_of_run h
  exact ⟨ops, hops, hm.ticks, hm.touches, hm.tickCount, hm.touchCount, fun hpos ↦
    ⟨hm.follower .followerX (.inl rfl) hpos, hm.follower .followerY (.inr rfl) hpos⟩⟩

/-- A launch, a frame, and a finger that comes down. -/
def frameAndTouch : List (Event UInt32) :=
  [.activity (.callback 0 .created), .activity (.callback 0 .started),
    .activity (.callback 0 .resumed), .activity (.vsync 16),
    .compose (.pointer [⟨0, 3, 4, true, false, false⟩])]

/-- One tick and one touch are shown. -/
theorem display_mirrors_native_frame : ∃ s : Shell (NativeApp UInt32) UInt32,
    (system .whole allBound (NativeApp.side .whole Codec.u32 "state.bin") .fresh).Run
      (initial .whole .fresh) frameAndTouch s ∧
    s.display.tickCountDisplay = 1 ∧ s.display.touchCountDisplay = 1 := by
  have hnone : (FileSystem.empty : FileSystem String).content "state.bin" = none := rfl
  obtain ⟨app, -, -, hstart, -⟩ :=
    KonativeAndroidApp.onStarted_of_none .whole Codec.u32 ⟨true, ⟨120, 300⟩, [], true⟩ hnone
  obtain ⟨-, e, b, happ⟩ := KonativeAndroidApp.onStarted_eq_some hstart
  have htick : app.Ticks .whole Codec.u32 "state.bin" 0
      { app.beginTick .whole 0 none with pc := .idle } := by
    rw [happ]
    exact KonativeAndroidApp.ticks_of_quiet rfl rfl rfl
  have hrun : (system .whole allBound (NativeApp.side .whole Codec.u32 "state.bin") .fresh).Run
      (initial .whole .fresh) frameAndTouch _ :=
    .cons (.activity _ _ _ _ [.start] rfl rfl <|
      .single (.told _ _ _ rfl (.started _ _ _ _ _ rfl hstart))) <|
    .cons (.activity _ _ _ _ [] rfl rfl (.nil _)) <|
    .cons (.activity _ _ _ _ [.resume] rfl rfl <|
      .single (.told _ _ _ rfl (.lifecycle _ _ (by decide)))) <|
    .cons (.activity _ _ _ _ [.tick 0] rfl rfl <|
      .cons (.told _ _ _ rfl (.tick _ _ _ _ htick)) <| .cons (.asked _ .tickCount rfl) <|
      .cons (.asked _ .followerX rfl) <| .single (.asked _ .followerY rfl)) <|
    .single (.compose _ _ _ rfl <|
      .cons (.told _ _ _ rfl (.touchDown _ _ _ _)) <| .single (.asked _ .touchCount rfl))
  obtain ⟨ops, hops, hticks, htouches, htickDisplay, htouchDisplay, -⟩ :=
    display_mirrors_native hrun
  have hcounts : (attempted .whole .initial frameAndTouch).map (fun x ↦
      (x.2.countP NativeOp.isTick, x.2.countP NativeOp.isTouch)) = some (1, 1) := rfl
  rw [hops] at hcounts
  obtain ⟨hcount, hcount'⟩ := Prod.mk.inj (Option.some.inj hcounts)
  refine ⟨_, hrun, ?_, ?_⟩
  · rw [htickDisplay, hticks, hcount]
    rfl
  · rw [htouchDisplay, htouches, hcount']
    rfl

end Shell

end Konative.Android
