import Konative.Android.NativeApp

/-!
# What the main thread sees of the application

A snapshot is captured from the registry and never written back, and the config decides
when there is one and what is logged: neither has to do with what the screen shows.  A
`Scene` is the rest of the application, and a tick of it is a function.

`NativeApp.refines_scene` says that the application is this scene to Kotlin, for any
`float` and any snapshots, so that a fact about scenes is one about the application.
-/

namespace Konative.App

open Entt

variable {F : Type}

/-- What the main thread can see of `KonativeAndroidApp`. -/
structure Scene (F : Type) where
  registry : AppRegistry F
  followerEntity : Option Entity
  followerHasUserTarget : Bool
  tickCount : UInt64
  touchEventCount : UInt64

namespace Scene

/-- A tick: the systems run. -/
def tick (o : FloatOps F) (deltaSeconds : F) (s : Scene F) : Scene F :=
  { s with registry := runSystems o deltaSeconds s.registry, tickCount := s.tickCount + 1 }

/-- The registry with the follower aimed. -/
def aimed (target : Vec3 F) (s : Scene F) : AppRegistry F :=
  s.followerEntity.elim s.registry fun e ↦ setTarget e target s.registry

/-- A touch that aims. -/
def aim (o : FloatOps F) (x y : F) (s : Scene F) : Scene F :=
  { s with
    registry := s.aimed ⟨x, y, o.ofInt 0⟩
    followerHasUserTarget := s.followerHasUserTarget ||
      s.followerEntity.any fun e ↦ s.registry.Valid e ∧ s.registry.Has .pointerFollow e
    touchEventCount := s.touchEventCount + 1 }

/-- A touch that ends. -/
def lift (s : Scene F) : Scene F := { s with touchEventCount := s.touchEventCount + 1 }

/-- A resize. -/
def resize (o : FloatOps F) (width height : Int32) (s : Scene F) : Scene F :=
  { s with
    registry :=
      if s.followerHasUserTarget then s.registry
      else s.aimed ⟨o.div (o.ofInt width.toInt) (o.ofInt 2),
        o.div (o.ofInt height.toInt) (o.ofInt 2), o.ofInt 0⟩ }

/-- Where the dot is. -/
def followerPosition (o : FloatOps F) (s : Scene F) : Vec3 F :=
  (s.followerEntity.bind fun e ↦
    if s.registry.Valid e then ((s.registry.pool .transform).get? e).map Transform.position
    else none).getD ⟨o.ofInt 0, o.ofInt 0, o.ofInt 0⟩

end Scene

/-- The scene of a process. -/
def TouchedApp.scene (s : TouchedApp F) : Scene F where
  registry := s.app.registry
  followerEntity := s.app.followerEntity
  followerHasUserTarget := s.app.followerHasUserTarget
  tickCount := s.app.tickCount
  touchEventCount := s.touchEventCount

end Konative.App

namespace Konative.Android

open App

variable {F : Type}

/-- The scene behind the native methods. -/
structure NativeScene (F : Type) where
  scene : Option (Scene F)
  misused : Bool

namespace NativeScene

/-- Without `on_started` nothing listens. -/
def trigger (f : Scene F → Scene F) (n : NativeScene F) : NativeScene F :=
  { n with scene := n.scene.map f }

/-- Begin, with some scene, or be misused. -/
def Starts (n n' : NativeScene F) : Prop :=
  match n.scene with
  | none => n'.misused = n.misused ∧ ∃ s, n'.scene = some s ∧ s.tickCount = 0 ∧
      s.touchEventCount = 0
  | some _ => n' = { n with misused := true }

/-- A tick of the scene, or a misuse. -/
def tick (o : FloatOps F) (deltaSeconds : F) (n : NativeScene F) : NativeScene F :=
  match n.scene with
  | none => { n with misused := true }
  | some s => { n with scene := some (s.tick o deltaSeconds) }

/-- What a request does to the scene. -/
def Receives (o : FloatOps F) : Request F → NativeScene F → NativeScene F → Prop
  | .dispatchLifecycle event, n, n' =>
      if AndroidLifecycleEvent.ofCode event = some .started then n.Starts n' else n' = n
  | .tick deltaSeconds, n, n' => n' = n.tick o deltaSeconds
  | .touchDown _ x y, n, n' | .touchMove _ x y, n, n' => n' = n.trigger (Scene.aim o x y)
  | .touchUp _ _ _, n, n' => n' = n.trigger Scene.lift
  | .windowResized width height, n, n' => n' = n.trigger (Scene.resize o width height)
  | .windowFocusChanged _, n, n' | .keyEvent _ _, n, n' => n' = n

variable {o : FloatOps F} {n n' : NativeScene F} {event : Int32}

theorem receives_started (hevent : AndroidLifecycleEvent.ofCode event = some .started)
    (h : n.Starts n') : Receives o (.dispatchLifecycle event) n n' := by
  rw [Receives, if_pos hevent]
  exact h

theorem receives_lifecycle (hevent : AndroidLifecycleEvent.ofCode event ≠ some .started) :
    Receives o (.dispatchLifecycle event) n n := by
  rw [Receives, if_neg hevent]

/-- The scene as a native side: it has no threads. -/
def side (o : FloatOps F) : NativeSide (NativeScene F) F where
  receive := Receives o
  background n n' := n' = n
  tickCount n := (n.scene.elim 0 Scene.tickCount).toInt64
  touchCount n := (n.scene.elim 0 Scene.touchEventCount).toInt64
  followerX n := (n.scene.elim ⟨o.ofInt 0, o.ofInt 0, o.ofInt 0⟩ (Scene.followerPosition o)).x
  followerY n := (n.scene.elim ⟨o.ofInt 0, o.ofInt 0, o.ofInt 0⟩ (Scene.followerPosition o)).y

end NativeScene

namespace NativeApp

variable {o : FloatOps F} {codec : Codec F} {path : String} {n n' : NativeApp F} {q : Request F}

/-- What the main thread sees of the application. -/
def scene (n : NativeApp F) : NativeScene F := ⟨n.app.map TouchedApp.scene, n.misused⟩

theorem scene_trigger {f : TouchedApp F → TouchedApp F} {g : Scene F → Scene F}
    (h : ∀ s, (f s).scene = g s.scene) (n : NativeApp F) :
    (n.trigger f).scene = n.scene.trigger g := by
  obtain ⟨_ | s, misused⟩ := n
  · rfl
  · change NativeScene.mk (some (f s).scene) misused = ⟨some (g s.scene), misused⟩
    rw [h]

theorem Receives.scene (h : Receives o codec path q n n') :
    NativeScene.Receives o q n.scene n'.scene := by
  cases h with
  | started event misused _ _ app hevent h =>
      obtain ⟨-, e, b, happ⟩ := KonativeAndroidApp.onStarted_eq_some h
      refine NativeScene.receives_started hevent ⟨rfl, _, rfl, ?_, rfl⟩
      exact congrArg KonativeAndroidApp.tickCount happ
  | startedAgain event misused app hevent => exact NativeScene.receives_started hevent rfl
  | lifecycle event _ hevent => exact NativeScene.receives_lifecycle hevent
  | tick deltaSeconds misused s app h =>
      obtain ⟨reload, hsame⟩ := h.undisturbed
      change NativeScene.mk (some _) misused = ⟨some _, misused⟩
      congr 2
      simp only [TouchedApp.scene, hsame.registry, hsame.followerEntity,
        hsame.followerHasUserTarget, hsame.tickCount]
      rfl
  | tickUnstarted | windowFocusChanged | keyEvent => rfl
  | touchDown _ x y | touchMove _ x y => exact scene_trigger (fun _ ↦ rfl) n
  | touchUp => exact scene_trigger (fun _ ↦ rfl) n
  | windowResized => exact scene_trigger (fun _ ↦ rfl) n

theorem Passes.scene (h : Passes o codec path n n') : n'.scene = n.scene := by
  cases h with
  | unstarted => rfl
  | started misused s app h =>
      obtain ⟨-, w, hw, hrun⟩ := h
      have hsame := KonativeAndroidApp.undisturbed_of_run hrun hw
      change NativeScene.mk (some _) misused = ⟨some _, misused⟩
      congr 2
      simp only [TouchedApp.scene, hsame.registry, hsame.followerEntity,
        hsame.followerHasUserTarget, hsame.tickCount]

/-- Whatever its other threads do, the application is its scene to Kotlin. -/
theorem refines_scene (o : FloatOps F) (codec : Codec F) (path : String) :
    (side o codec path).Refines (NativeScene.side o) scene where
  receive h := Receives.scene h
  background h := Passes.scene h
  answer q n d := by
    obtain ⟨_ | s, misused⟩ := n <;> cases q <;> rfl

end NativeApp

/-! ## Only the main thread is seen -/

namespace NativeScene

variable {o : FloatOps F} {n n₁ n₂ : NativeScene F} {q : Request F}

/-- A scene that is there goes on in one way, and stays there. -/
theorem Receives.deterministic (hn : n.scene.isSome = true) (h₁ : Receives o q n n₁)
    (h₂ : Receives o q n n₂) : n₁ = n₂ ∧ n₁.scene.isSome = true := by
  obtain ⟨_ | sc, misused⟩ := n
  · cases hn
  cases q with
  | dispatchLifecycle event =>
      by_cases hevent : AndroidLifecycleEvent.ofCode event = some .started
      · rw [Receives, if_pos hevent] at h₁ h₂
        exact ⟨Eq.trans h₁ (Eq.symm h₂), congrArg (fun n ↦ n.scene.isSome) h₁⟩
      · rw [Receives, if_neg hevent] at h₁ h₂
        exact ⟨h₁.trans h₂.symm, congrArg (fun n ↦ n.scene.isSome) h₁⟩
  | tick | touchDown | touchMove | touchUp | windowResized | windowFocusChanged | keyEvent =>
      exact ⟨Eq.trans h₁ (Eq.symm h₂), congrArg (fun n ↦ n.scene.isSome) h₁⟩

end NativeScene

namespace Shell

/-- What happens on the main thread. -/
def Event.isMain : Event F → Bool
  | activity _ | compose _ => true
  | background => false

section Scenes

variable {o : FloatOps F} {bound : NativeMethod → Bool} {s s₁ s₂ : Shell (NativeScene F) F}
  {n₀ n₀' : NativeScene F} {e : Event F} {w : List (Event F)} {op : NativeOp F}
  {ops : List (NativeOp F)}

theorem Call.deterministic (hs : s.native.scene.isSome = true)
    (h₁ : Call bound (NativeScene.side o) s op s₁) (h₂ : Call bound (NativeScene.side o) s op s₂) :
    s₁ = s₂ ∧ s₁.native.scene.isSome = true := by
  cases h₁ with
  | told q n hq hn =>
      cases h₂ with
      | told _ n' _ hn' =>
          obtain ⟨rfl, hsome⟩ := NativeScene.Receives.deterministic hs hn hn'
          exact ⟨rfl, hsome⟩
      | failed _ hop => exact absurd (hq.symm.trans hop) (by decide)
  | asked q hq =>
      cases h₂ with
      | asked => exact ⟨rfl, hs⟩
      | failed _ hop => exact absurd (hq.symm.trans hop) (by decide)
  | failed op hop =>
      have hsame : (s.logNativeBindingFailureOnce op.method.tag op.message).native = s.native := by
        unfold logNativeBindingFailureOnce
        split <;> rfl
      cases h₂ with
      | told _ _ hq | asked _ hq => exact absurd (hq.symm.trans hop) (by decide)
      | failed => exact ⟨rfl, hsame ▸ hs⟩

theorem calls_deterministic (h₁ : (calls bound (NativeScene.side o)).Run s ops s₁)
    (h₂ : (calls bound (NativeScene.side o)).Run s ops s₂) (hs : s.native.scene.isSome = true) :
    s₁ = s₂ ∧ s₁.native.scene.isSome = true := by
  induction h₁ generalizing s₂ with
  | nil s =>
      cases h₂
      exact ⟨rfl, hs⟩
  | cons hc _ ih =>
      cases h₂ with
      | cons hc' h₂ =>
          obtain ⟨rfl, hsome⟩ := hc.deterministic hs hc'
          exact ih h₂ hsome

/-- So does the process, on the main thread. -/
theorem Step.deterministic (he : e.isMain = true) (hs : s.native.scene.isSome = true)
    (h₁ : Step o bound (NativeScene.side o) s e s₁)
    (h₂ : Step o bound (NativeScene.side o) s e s₂) :
    s₁ = s₂ ∧ s₁.native.scene.isSome = true := by
  cases h₁ with
  | activity s₁ e ui asked hnext hasked hcalls =>
      cases h₂ with
      | activity s₂ e ui' asked' hnext' hasked' hcalls' =>
          obtain rfl := Option.some.inj (hnext.symm.trans hnext')
          obtain rfl := List.append_cancel_left (hasked.symm.trans hasked')
          exact calls_deterministic hcalls hcalls' hs
  | compose s₁ e _ hcalls =>
      cases h₂ with
      | compose s₂ e _ hcalls' => exact calls_deterministic hcalls hcalls' hs
  | background => cases he

theorem run_deterministic (h₁ : (system o bound (NativeScene.side o) n₀).Run s w s₁)
    (h₂ : (system o bound (NativeScene.side o) n₀').Run s w s₂) (hw : ∀ e ∈ w, e.isMain = true)
    (hs : s.native.scene.isSome = true) : s₁ = s₂ := by
  induction h₁ generalizing s₂ with
  | nil s =>
      cases h₂
      rfl
  | cons h _ ih =>
      cases h₂ with
      | cons h' h₂ =>
          obtain ⟨rfl, hsome⟩ := Step.deterministic (hw _ List.mem_cons_self) hs h h'
          exact ih h₂ (fun e he ↦ hw e (List.mem_cons_of_mem _ he)) hsome

/-- A scene has no threads: a run is one of the main thread. -/
theorem run_main (h : (system o bound (NativeScene.side o) n₀).Run s w s₁) :
    (system o bound (NativeScene.side o) n₀).Run s (w.filter Event.isMain) s₁ := by
  induction h with
  | nil s => exact .nil s
  | @cons s t s₁ e w h _ ih =>
      cases e with
      | activity | compose => exact .cons h ih
      | background =>
          cases h with
          | background n hn =>
              obtain rfl : n = s.native := hn
              exact ih

end Scenes

variable {o : FloatOps F} {codec codec' : Codec F} {path path' : String}
  {bound : NativeMethod → Bool} {s₁ s₂ t₁ t₂ : Shell (NativeApp F) F} {n₀ n₀' : NativeApp F}
  {w₁ w₂ : List (Event F)}

/-- Two processes that look the same to Kotlin, their applications started, go on to look
the same as long as the same happens on their main threads: whatever snapshots the one
takes or fails to take, whatever its writer threads do and whenever, whatever its config
says, and wherever and however it saves. -/
theorem main_thread_determines
    (h₁ : (system o bound (NativeApp.side o codec path) n₀).Run s₁ w₁ t₁)
    (h₂ : (system o bound (NativeApp.side o codec' path') n₀').Run s₂ w₂ t₂)
    (hs : s₁.map NativeApp.scene = s₂.map NativeApp.scene) (happ : s₁.native.app.isSome = true)
    (hw : w₁.filter Event.isMain = w₂.filter Event.isMain) :
    t₁.map NativeApp.scene = t₂.map NativeApp.scene := by
  have hrun₁ := run_main (run_map (NativeApp.refines_scene o codec path) h₁)
  have hrun₂ := run_main (run_map (NativeApp.refines_scene o codec' path') h₂)
  rw [← hs, ← hw] at hrun₂
  apply run_deterministic hrun₁ hrun₂
  · intro e he
    exact (List.mem_filter.mp he).2
  · exact Option.isSome_map.trans happ

/-- Two processes that save to different files, one of which is interrupted. -/
theorem main_thread_determines_touch : ∃ t₁ t₂ : Shell (NativeApp UInt32) UInt32,
    t₁.map NativeApp.scene = t₂.map NativeApp.scene ∧
      t₁.native.touchEventCount = 1 ∧ t₂.native.touchEventCount = 1 := by
  have hnone : (FileSystem.empty : FileSystem String).content "state.bin" = none := rfl
  obtain ⟨app, -, -, hstart, -⟩ :=
    KonativeAndroidApp.onStarted_of_none .whole Codec.u32 ⟨true, ⟨120, 300⟩, [], true⟩ hnone
  let s : Shell (NativeApp UInt32) UInt32 :=
    { initial .whole ⟨some ⟨app, 0⟩, false⟩ with
      ui := { EntryPoint.initial with nativeStarted := true } }
  let touch : Event UInt32 := .compose (.pointer [⟨0, 3, 4, true, false, false⟩])
  have h₁ : (system .whole allBound (NativeApp.side .whole Codec.u32 "state.bin") .fresh).Run
      s [touch] _ :=
    .single (.compose _ _ _ rfl <|
      .cons (.told _ _ _ rfl (.touchDown _ _ _ _)) <| .single (.asked _ .touchCount rfl))
  have h₂ : (system .whole allBound (NativeApp.side .whole Codec.u32 "other.bin") .fresh).Run
      s [.background, touch] _ :=
    .cons (.background _ _ (.started _ _ app ⟨rfl, [], nofun, .nil _⟩)) <|
    .single (.compose _ _ _ rfl <|
      .cons (.told _ _ _ rfl (.touchDown _ _ _ _)) <| .single (.asked _ .touchCount rfl))
  exact ⟨_, _, main_thread_determines h₁ h₂ rfl rfl rfl, rfl, rfl⟩

end Shell

end Konative.Android
