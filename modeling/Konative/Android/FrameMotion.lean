import Konative.Android.FrameTicker
import Konative.Android.Scene
import Konative.App.FollowerMotion
import Konative.Lib.JumpFlow

/-!
# Frames and motion

A display with more frames ticks the application more often, each time with less on the
clock.  In exact arithmetic a scene is a flow that inputs make jump: how the time between
two inputs was cut into frames does not matter, up to what counts ticks.

`motion_of_frames` says so of the whole process, from the Choreographer's frame times and
Compose's inputs to the registry: from any state it can be in with frames coming in, two
histories with the same inputs, each after the same frame time, and with the same last
frame, leave the same targets and the same positions.
-/

namespace Konative.App

open Entt

/-! ## Scenes as a flow -/

section Receive

variable {F : Type}

namespace Scene

/-- What a request does to a scene that is there. -/
def receive (o : FloatOps F) (s : Scene F) : Android.Request F → Scene F
  | .tick deltaSeconds => s.tick o deltaSeconds
  | .touchDown _ x y | .touchMove _ x y => s.aim o x y
  | .touchUp _ _ _ => s.lift
  | .windowResized width height => s.resize o width height
  | .dispatchLifecycle _ | .windowFocusChanged _ | .keyEvent _ _ => s

/-- What calls do to it. -/
def receiveAll (o : FloatOps F) (ops : List (Android.NativeOp F)) (s : Scene F) : Scene F :=
  ops.foldl (fun s op ↦ match op with
    | .tell q => s.receive o q
    | .ask _ => s) s

/-- Two scenes differ in what counts ticks only. -/
structure SameMotion (s t : Scene F) : Prop where
  entities : s.registry.entities = t.registry.entities
  transform : s.registry.pool .transform = t.registry.pool .transform
  pointerFollow : s.registry.pool .pointerFollow = t.registry.pool .pointerFollow
  followerEntity : s.followerEntity = t.followerEntity
  followerHasUserTarget : s.followerHasUserTarget = t.followerHasUserTarget
  touchEventCount : s.touchEventCount = t.touchEventCount

namespace SameMotion

variable {s t r : Scene F}

theorem refl (s : Scene F) : SameMotion s s := ⟨rfl, rfl, rfl, rfl, rfl, rfl⟩

theorem symm (h : SameMotion s t) : SameMotion t s :=
  ⟨h.entities.symm, h.transform.symm, h.pointerFollow.symm, h.followerEntity.symm,
    h.followerHasUserTarget.symm, h.touchEventCount.symm⟩

theorem trans (h : SameMotion s t) (h' : SameMotion t r) : SameMotion s r :=
  ⟨h.entities.trans h'.entities, h.transform.trans h'.transform,
    h.pointerFollow.trans h'.pointerFollow, h.followerEntity.trans h'.followerEntity,
    h.followerHasUserTarget.trans h'.followerHasUserTarget,
    h.touchEventCount.trans h'.touchEventCount⟩

/-- The dot is at the same place. -/
theorem followerPosition (h : SameMotion s t) (o : FloatOps F) :
    s.followerPosition o = t.followerPosition o := by
  have hvalid (e : Entity) : s.registry.Valid e ↔ t.registry.Valid e := by
    rw [Registry.Valid, h.entities]
  unfold Scene.followerPosition
  rw [h.followerEntity, h.transform]
  simp only [hvalid]

end SameMotion

/-- Where the systems take an entity. -/
def ticked (o : FloatOps F) (deltaSeconds : F) (follows : Pool (PointerFollow F)) (e : Entity)
    (t : Transform F) : Transform F :=
  match follows.get? e with
  | some follow => approach o t follow.target follow.approachRate deltaSeconds
  | none => t

theorem tick_transform (o : FloatOps F) (deltaSeconds : F) (s : Scene F) :
    (s.tick o deltaSeconds).registry.pool .transform =
      (s.registry.pool .transform).patch
        (ticked o deltaSeconds (s.registry.pool .pointerFollow)) := by
  change (runSystems o deltaSeconds s.registry).pool .transform = _
  rw [runSystems, moveFollowersTowardTargets, Registry.patch_pool_self,
    incrementHeartbeatCounters, Registry.patch_pool_of_ne (by decide),
    Registry.patch_pool_of_ne (by decide)]
  rfl

theorem tick_pointerFollow (o : FloatOps F) (deltaSeconds : F) (s : Scene F) :
    (s.tick o deltaSeconds).registry.pool .pointerFollow = s.registry.pool .pointerFollow := by
  change (runSystems o deltaSeconds s.registry).pool .pointerFollow = _
  rw [runSystems, moveFollowersTowardTargets, Registry.patch_pool_of_ne (by decide),
    incrementHeartbeatCounters, Registry.patch_pool_of_ne (by decide)]

theorem SameMotion.tick {s t : Scene F} (h : SameMotion s t) (o : FloatOps F) (deltaSeconds : F) :
    SameMotion (s.tick o deltaSeconds) (t.tick o deltaSeconds) := by
  refine ⟨h.entities, ?_, ?_, h.followerEntity, h.followerHasUserTarget, h.touchEventCount⟩
  · rw [tick_transform, tick_transform, h.transform, h.pointerFollow]
  · rw [tick_pointerFollow, tick_pointerFollow, h.pointerFollow]

/-- Aiming writes targets only, by the entities and the targets there are. -/
theorem setTarget_same {r r' : AppRegistry F} (e : Entity) (target : Vec3 F)
    (hentities : r.entities = r'.entities)
    (htransform : r.pool .transform = r'.pool .transform)
    (hfollow : r.pool .pointerFollow = r'.pool .pointerFollow) :
    (setTarget e target r).entities = (setTarget e target r').entities ∧
      (setTarget e target r).pool .transform = (setTarget e target r').pool .transform ∧
      (setTarget e target r).pool .pointerFollow = (setTarget e target r').pool .pointerFollow := by
  have hcan : r.Valid e ∧ r.Has .pointerFollow e ↔ r'.Valid e ∧ r'.Has .pointerFollow e := by
    rw [Registry.Valid, Registry.Has, hentities, hfollow]
  unfold setTarget
  by_cases h : r.Valid e ∧ r.Has .pointerFollow e
  · rw [if_pos h, if_pos (hcan.mp h), Registry.patch_pool_self, Registry.patch_pool_self,
      Registry.patch_pool_of_ne (by decide), Registry.patch_pool_of_ne (by decide), hfollow]
    exact ⟨hentities, htransform, rfl⟩
  · rw [if_neg h, if_neg (mt hcan.mpr h)]
    exact ⟨hentities, htransform, hfollow⟩

variable {s t : Scene F}

theorem SameMotion.aimed (h : SameMotion s t) (target : Vec3 F) :
    (s.aimed target).entities = (t.aimed target).entities ∧
      (s.aimed target).pool .transform = (t.aimed target).pool .transform ∧
      (s.aimed target).pool .pointerFollow = (t.aimed target).pool .pointerFollow := by
  unfold Scene.aimed
  rw [h.followerEntity]
  cases t.followerEntity with
  | none => exact ⟨h.entities, h.transform, h.pointerFollow⟩
  | some e => exact setTarget_same e target h.entities h.transform h.pointerFollow

theorem SameMotion.aim (h : SameMotion s t) (o : FloatOps F) (x y : F) :
    SameMotion (s.aim o x y) (t.aim o x y) := by
  obtain ⟨hentities, htransform, hfollow⟩ := h.aimed ⟨x, y, o.ofInt 0⟩
  refine ⟨hentities, htransform, hfollow, h.followerEntity, ?_, congrArg (· + 1) h.touchEventCount⟩
  change (s.followerHasUserTarget || _) = (t.followerHasUserTarget || _)
  simp only [Registry.Valid, Registry.Has, h.entities, h.pointerFollow, h.followerEntity,
    h.followerHasUserTarget]

theorem SameMotion.resize (h : SameMotion s t) (o : FloatOps F) (width height : Int32) :
    SameMotion (s.resize o width height) (t.resize o width height) := by
  unfold Scene.resize
  rw [h.followerHasUserTarget]
  cases t.followerHasUserTarget with
  | true =>
      exact ⟨h.entities, h.transform, h.pointerFollow, h.followerEntity, rfl, h.touchEventCount⟩
  | false =>
      obtain ⟨hentities, htransform, hfollow⟩ := h.aimed
        ⟨o.div (o.ofInt width.toInt) (o.ofInt 2),
          o.div (o.ofInt height.toInt) (o.ofInt 2), o.ofInt 0⟩
      exact ⟨hentities, htransform, hfollow, h.followerEntity, rfl, h.touchEventCount⟩

/-- No request tells the two apart. -/
theorem SameMotion.receive (h : SameMotion s t) (o : FloatOps F) (q : Android.Request F) :
    SameMotion (s.receive o q) (t.receive o q) := by
  cases q with
  | tick deltaSeconds => exact h.tick o deltaSeconds
  | touchDown _ x y | touchMove _ x y => exact h.aim o x y
  | touchUp =>
      exact ⟨h.entities, h.transform, h.pointerFollow, h.followerEntity, h.followerHasUserTarget,
        congrArg (· + 1) h.touchEventCount⟩
  | windowResized width height => exact h.resize o width height
  | dispatchLifecycle | windowFocusChanged | keyEvent => exact h

theorem SameMotion.receiveAll (h : SameMotion s t) (o : FloatOps F)
    (ops : List (Android.NativeOp F)) :
    SameMotion (s.receiveAll o ops) (t.receiveAll o ops) := by
  induction ops generalizing s t with
  | nil => exact h
  | cons op ops ih =>
      cases op with
      | tell q => exact ih (h.receive o q)
      | ask q => exact ih h

end Scene

end Receive

/-! ## Exact arithmetic -/

namespace Scene

/-- Ticks in a row are one tick over all of their time. -/
theorem sameMotion_tick_tick {d d' : ℝ} (hd : 0 ≤ d) (hd' : 0 ≤ d') (s : Scene ℝ) :
    SameMotion ((s.tick .real d).tick .real d') (s.tick .real (d + d')) := by
  refine ⟨rfl, ?_, ?_, rfl, rfl, rfl⟩
  · rw [tick_transform, tick_transform, tick_pointerFollow, tick_transform, Pool.patch_patch]
    congr 1
    funext e t
    unfold ticked
    cases (s.registry.pool .pointerFollow).get? e with
    | none => rfl
    | some follow =>
        have hboth := approachAll_real follow.target follow.approachRate
          (List.forall_mem_cons.mpr ⟨hd, List.forall_mem_singleton.mpr hd'⟩) t
        rw [List.sum_cons, List.sum_singleton] at hboth
        exact hboth
  · rw [tick_pointerFollow, tick_pointerFollow, tick_pointerFollow]

/-- A tick of no time moves nothing. -/
theorem sameMotion_tick_zero (s : Scene ℝ) : SameMotion (s.tick .real 0) s := by
  refine ⟨rfl, ?_, tick_pointerFollow .real 0 s, rfl, rfl, rfl⟩
  have hid : ticked .real 0 (s.registry.pool .pointerFollow) = fun _ t ↦ t := by
    funext e t
    unfold ticked
    cases (s.registry.pool .pointerFollow).get? e with
    | none => rfl
    | some follow =>
        change approach .real t follow.target follow.approachRate 0 = t
        rw [approach_real, Vec3.glide_of_retained (retained_of_time_nonpos _ le_rfl)]
  rw [tick_transform, hid, Pool.patch_id]

end Scene

end Konative.App

namespace Konative.Android

open App

theorem deltaSeconds_real (d : ℤ) : deltaSeconds .real d = (d : ℝ) / 1000000000 := by
  unfold deltaSeconds
  split
  · rename_i h
    subst h
    change ((0 : ℤ) : ℝ) = _
    rw [Int.cast_zero, zero_div]
  · change (d : ℝ) / ((1000000000 : ℤ) : ℝ) = _
    norm_num

/-- The flow of a scene in nanoseconds, and what Compose makes of it. -/
noncomputable def sceneFlow : JumpFlow (Scene ℝ) ℤ (ComposeEvent ℝ) where
  Same := Scene.SameMotion
  equivalence := ⟨.refl, .symm, .trans⟩
  flow d s := s.tick .real (deltaSeconds .real d)
  jump e s := s.receiveAll .real e.ops
  flow_congr h := h.tick .real _
  jump_congr h := h.receiveAll .real _
  zero s := by
    rw [deltaSeconds_real, Int.cast_zero, zero_div]
    exact Scene.sameMotion_tick_zero s
  add {d d'} s hd hd' := by
    have hseconds {d : ℤ} (hd : 0 ≤ d) : 0 ≤ deltaSeconds .real d := by
      rw [deltaSeconds_real]
      positivity
    have hsum : deltaSeconds .real d + deltaSeconds .real d' = deltaSeconds .real (d + d') := by
      rw [deltaSeconds_real, deltaSeconds_real, deltaSeconds_real, Int.cast_add, add_div]
    rw [← hsum]
    exact Scene.sameMotion_tick_tick (hseconds hd) (hseconds hd') s

/-! ## Frames -/

namespace Shell

section Histories

variable {F : Type}

/-- Frames with growing times, what Compose is told, and the other threads; the Activities
stay as they are. -/
def Framed : ℤ → List (Event F) → Prop
  | _, [] => True
  | last, .activity (.vsync t) :: w => last < t ∧ Framed t w
  | _, .activity (.callback _ _) :: _ => False
  | last, .compose _ :: w | last, .background :: w => Framed last w

/-- The time of the last frame, if it was `last` before. -/
def lastFrame : ℤ → List (Event F) → ℤ
  | last, [] => last
  | _, .activity (.vsync t) :: w => lastFrame t w
  | last, .activity (.callback _ _) :: w | last, .compose _ :: w | last, .background :: w =>
      lastFrame last w

/-- What Compose is told, each with the time of the frame before. -/
def inputs : ℤ → List (Event F) → List (ℤ × ComposeEvent F)
  | _, [] => []
  | _, .activity (.vsync t) :: w => inputs t w
  | last, .compose e :: w => (last, e) :: inputs last w
  | last, .activity (.callback _ _) :: w | last, .background :: w => inputs last w

/-- The history as samples. -/
def samples : ℤ → List (Event F) → List (Sample ℤ (ComposeEvent F))
  | _, [] => []
  | last, .activity (.vsync t) :: w => .wait (t - last) :: samples t w
  | last, .compose e :: w => .jump e :: samples last w
  | last, .activity (.callback _ _) :: w | last, .background :: w => samples last w

theorem schedule_samples (last : ℤ) (w : List (Event F)) :
    Sample.schedule last (samples last w) = inputs last w := by
  induction w generalizing last with
  | nil => rfl
  | cons e w ih =>
      rcases e with (⟨a, c⟩ | t) | e | _
      · exact ih last
      · change Sample.schedule (last + (t - last)) (samples t w) = inputs t w
        rw [add_sub_cancel, ih]
      · exact congrArg ((last, e) :: ·) (ih last)
      · exact ih last

theorem duration_samples (last : ℤ) (w : List (Event F)) :
    Sample.duration (samples last w) = lastFrame last w - last := by
  induction w generalizing last with
  | nil => exact (sub_self last).symm
  | cons e w ih =>
      rcases e with (⟨a, c⟩ | t) | e | _
      · exact ih last
      · change t - last + Sample.duration (samples t w) = lastFrame t w - last
        rw [ih, add_comm, sub_add_sub_cancel]
      · exact ih last
      · exact ih last

theorem forward_samples {last : ℤ} {w : List (Event F)} (h : Framed last w) :
    Sample.Forward (samples last w) := by
  induction w generalizing last with
  | nil => exact nofun
  | cons e w ih =>
      rcases e with (⟨a, c⟩ | t) | e | _
      · exact h.elim
      · intro d hd
        rcases List.mem_cons.mp hd with hd | hd
        · obtain rfl := Sample.wait.inj hd
          exact sub_nonneg.mpr h.1.le
        · exact ih h.2 d hd
      · intro d hd
        exact @ih last h d ((List.mem_cons.mp hd).resolve_left nofun)
      · exact @ih last h

end Histories

/-! ## The process -/

section Runs

variable {F N : Type} {o : FloatOps F} {bound : NativeMethod → Bool} {side : NativeSide N F}
  {s : Shell N F} {n₀ : N} {w : List (Event F)}

theorem scheduled_of_run (h : (system o bound side n₀).Run (initial o n₀) w s) :
    s.ui.ticker.Scheduled :=
  ui_invariant EntryPoint.scheduled_next h rfl

end Runs

end Shell

/-! ## The scene of a process -/

namespace NativeScene.Receives

variable {F : Type} {o : FloatOps F} {q : Request F} {n n' : NativeScene F}

/-- Nothing but STARTED makes a scene, and it is a function of the scene that is there. -/
theorem scene_eq (h : NativeScene.Receives o q n n') (hstart : ¬ (NativeOp.tell q).IsStart) :
    n'.scene = n.scene.map fun sc ↦ sc.receive o q := by
  cases q with
  | dispatchLifecycle event =>
      have hevent : AndroidLifecycleEvent.ofCode event ≠ some .started := hstart
      rw [NativeScene.Receives, if_neg hevent] at h
      rw [h]
      exact (congrFun Option.map_id _).symm
  | tick deltaSeconds =>
      obtain ⟨_ | sc, misused⟩ := n <;> exact congrArg NativeScene.scene h
  | touchDown | touchMove | touchUp | windowResized => exact congrArg NativeScene.scene h
  | windowFocusChanged | keyEvent =>
      exact (congrArg NativeScene.scene h).trans (congrFun Option.map_id _).symm

theorem starts (event : Int32) (h : NativeScene.Receives o (.dispatchLifecycle event) n n')
    (hevent : AndroidLifecycleEvent.ofCode event = some .started) : n.Starts n' := by
  rw [NativeScene.Receives, if_pos hevent] at h
  exact h

end NativeScene.Receives

namespace Shell

section Scenes

variable {F : Type} {o : FloatOps F} {s s' : Shell (NativeScene F) F} {e : Event F}
  {ops : List (NativeOp F)} {sc : Scene F} {n₀ : NativeScene F} {w : List (Event F)}

theorem scene_of_calls (h : (calls allBound (NativeScene.side o)).Run s ops s')
    (hstart : ∀ op ∈ ops, ¬ op.IsStart) :
    s'.native.scene = s.native.scene.map fun sc ↦ sc.receiveAll o ops := by
  induction h with
  | nil s => exact (congrFun Option.map_id _).symm
  | cons hc _ ih =>
      rw [ih fun op hop ↦ hstart op (List.mem_cons_of_mem _ hop)]
      cases hc with
      | told q n hq hn =>
          change n.scene.map _ = _
          rw [hn.scene_eq (hstart _ List.mem_cons_self), Option.map_map]
          rfl
      | asked => rfl
      | failed op hop => cases hop

/-- There is a scene once STARTED has been asked for. -/
structure Present (s : Shell (NativeScene F) F) : Prop where
  launched : s.ui.Launched
  isSome : s.native.scene.isSome = s.ui.nativeStarted

theorem present_of_calls {ui : EntryPoint} (h : (calls allBound (NativeScene.side o)).Run
    { s with ui } ops s') (hstart : ∀ op ∈ ops, ¬ op.IsStart) (hs : s.Present)
    (hlaunched : ui.Launched) (hui : ui.nativeStarted = s.ui.nativeStarted) : s'.Present := by
  have hscene := scene_of_calls h hstart
  constructor
  · rwa [ui_of_calls h]
  · rw [hscene, Option.isSome_map, ui_of_calls h]
    exact hs.isSome.trans hui.symm

/-- The step lemma. -/
theorem Step.present (h : Step o allBound (NativeScene.side o) s e s') (hs : s.Present) :
    s'.Present := by
  cases h with
  | background n hn =>
      obtain rfl : n = _ := hn
      exact hs
  | compose s' e _ hcalls =>
      exact present_of_calls hcalls (fun op hop ↦ (ops_of_compose e op hop).1) hs hs.launched rfl
  | activity s' e ui asked hnext hasked hcalls =>
      obtain ⟨hlaunched, asked', hasked', hcases⟩ := hs.launched.asked_cases hnext
      obtain rfl := List.append_cancel_left (hasked.symm.trans hasked')
      rcases hcases with ⟨hfalse, htrue, rfl⟩ | ⟨hsame, hstart, -⟩
      · have hui := ui_of_calls hcalls
        have hnone : s.native.scene = none :=
          Option.isNone_iff_eq_none.mp (Option.isSome_eq_false_iff.mp (hs.isSome.trans hfalse))
        refine ⟨hui ▸ hlaunched, ?_⟩
        rw [hui, htrue]
        cases hcalls with
        | cons hc hcalls =>
            cases hcalls
            cases hc with
            | told _ n _ hn =>
                have hstarts : s.native.Starts n :=
                  NativeScene.Receives.starts (o := o) AndroidLifecycleEvent.started.code hn
                    (AndroidLifecycleEvent.ofCode_code _)
                rw [NativeScene.Starts, hnone] at hstarts
                obtain ⟨-, sc, hsc, -⟩ := hstarts
                exact congrArg Option.isSome hsc
            | failed _ hop => cases hop
      · exact present_of_calls hcalls (fun op hop ↦ (ops_of_asked hstart op hop).1) hs hlaunched
          hsame

theorem present_of_run (h : (system o allBound (NativeScene.side o) ⟨none, false⟩).Run
    (initial o ⟨none, false⟩) w s) : s.Present :=
  h.invariant (I := Present) Step.present ⟨EntryPoint.launched_initial, rfl⟩

/-- A frame of a ticker that is running ticks once, with the time since the last one. -/
theorem next_vsync {ui ui' : EntryPoint} {last t : ℤ}
    (h : EntryPoint.next true ui (.vsync t) = some ui')
    (hticker : ui.ticker = ⟨true, last, 1⟩) (hlast : 0 < last) :
    ui'.ticker = ⟨true, t, 1⟩ ∧ ui'.native = ui.native ++ [.tick (t - last)] := by
  obtain rfl := Option.some.inj h
  obtain ⟨hticker', hnative⟩ := EntryPoint.vsync_ticker true t ui
  have hscheduled : ui.ticker.Scheduled := by rw [hticker]; rfl
  have hframe := hscheduled.vsync_active (by rw [hticker]) t
  rw [hframe] at hticker' hnative
  rw [hticker, if_neg hlast.ne'] at hnative
  exact ⟨hticker', hnative⟩

end Scenes

variable {s s' s₁ s₂ : Shell (NativeScene ℝ) ℝ} {n₀ : NativeScene ℝ} {w w₀ w₁ w₂ : List (Event ℝ)}

/-- The run lemma: while frames come in, the scene is driven by the samples. -/
theorem scene_of_run (h : (system .real allBound (NativeScene.side .real) n₀).Run s w s')
    {last : ℤ} {sc : Scene ℝ} (hw : Framed last w) (hlast : 0 < last)
    (hticker : s.ui.ticker = ⟨true, last, 1⟩) (hsc : s.native.scene = some sc) :
    s'.native.scene = some (sceneFlow.run (samples last w) sc) := by
  induction h generalizing last sc with
  | nil s => exact hsc
  | cons hs _ ih =>
      cases hs with
      | background n hn =>
          obtain rfl : n = _ := hn
          exact @ih last sc hw hlast hticker hsc
      | compose s' e _ hcalls =>
          have hops := ops_of_compose e
          apply @ih last _ hw hlast
          · rwa [ui_of_calls hcalls]
          · rw [scene_of_calls hcalls fun op hop ↦ (hops op hop).1, hsc]
            rfl
      | activity s' e ui asked hnext hasked hcalls =>
          cases e with
          | callback a c => exact hw.elim
          | vsync t =>
              obtain ⟨hticker', hnative⟩ := next_vsync hnext hticker hlast
              obtain rfl := List.append_cancel_left (hasked.symm.trans hnative)
              have hops := @ops_of_asked ℝ .real [.tick (t - last)] nofun
              apply ih hw.2 (hlast.trans hw.1)
              · rw [ui_of_calls hcalls]
                exact hticker'
              · rw [scene_of_calls hcalls fun op hop ↦ (hops op hop).1, hsc]
                rfl

/-- From any state of the process in which the ticker has been running since an earlier
frame: two histories of frames and inputs, in which the inputs are the same and come after
the same frame times, and which have the same last frame, leave scenes that differ in what
counts ticks only, with the dot at the same place. -/
theorem motion_of_frames
    (h₀ : (system .real allBound (NativeScene.side .real) ⟨none, false⟩).Run
      (initial .real ⟨none, false⟩) w₀ s)
    (hactive : s.ui.ticker.active = true) (hpos : 0 < s.ui.ticker.lastFrameTimeNanos)
    (h₁ : (system .real allBound (NativeScene.side .real) ⟨none, false⟩).Run s w₁ s₁)
    (h₂ : (system .real allBound (NativeScene.side .real) ⟨none, false⟩).Run s w₂ s₂)
    (hw₁ : Framed s.ui.ticker.lastFrameTimeNanos w₁)
    (hw₂ : Framed s.ui.ticker.lastFrameTimeNanos w₂)
    (hinputs : inputs s.ui.ticker.lastFrameTimeNanos w₁ =
      inputs s.ui.ticker.lastFrameTimeNanos w₂)
    (hlast : lastFrame s.ui.ticker.lastFrameTimeNanos w₁ =
      lastFrame s.ui.ticker.lastFrameTimeNanos w₂) :
    ∃ sc₁ sc₂, s₁.native.scene = some sc₁ ∧ s₂.native.scene = some sc₂ ∧
      Scene.SameMotion sc₁ sc₂ ∧ sc₁.followerPosition .real = sc₂.followerPosition .real := by
  have hpresent := present_of_run h₀
  obtain ⟨sc, hsc⟩ : ∃ sc, s.native.scene = some sc := by
    rw [← Option.isSome_iff_exists, hpresent.isSome]
    exact hpresent.launched.active hactive
  generalize hlastFrame : s.ui.ticker.lastFrameTimeNanos = last at *
  have hticker : s.ui.ticker = ⟨true, last, 1⟩ := by
    have hpending : s.ui.ticker.pending = 1 := by
      rw [scheduled_of_run h₀, hactive]
      rfl
    rw [← hactive, ← hlastFrame, ← hpending]
  have hsame : Scene.SameMotion (sceneFlow.run (samples last w₁) sc)
      (sceneFlow.run (samples last w₂) sc) := by
    apply @JumpFlow.run_same _ _ _ _ _ _ sceneFlow _ _ _ _ (forward_samples hw₁)
      (forward_samples hw₂) last _ _ (JumpFlow.Same.refl sc)
    · rw [schedule_samples, schedule_samples, hinputs]
    · rw [duration_samples, duration_samples, hlast]
  exact ⟨_, _, scene_of_run h₁ hw₁ hpos hticker hsc, scene_of_run h₂ hw₂ hpos hticker hsc, hsame,
    hsame.followerPosition .real⟩

/-! ### Two frames around a touch, and four -/

/-- A launch, and the first frame. -/
def firstFrame : List (Event ℝ) :=
  [.activity (.callback 0 .created), .activity (.callback 0 .started),
    .activity (.callback 0 .resumed), .activity (.vsync 16)]

/-- A finger comes down. -/
def fingerDown : Event ℝ := .compose (.pointer [⟨0, 30, 40, true, false, false⟩])

/-- Every request is received. -/
theorem exists_receives (q : Request ℝ) (n : NativeScene ℝ) :
    ∃ n', NativeScene.Receives .real q n n' := by
  cases q with
  | dispatchLifecycle event =>
      by_cases hevent : AndroidLifecycleEvent.ofCode event = some .started
      · obtain ⟨_ | sc, misused⟩ := n
        · exact ⟨⟨some ⟨.empty, none, false, 0, 0⟩, misused⟩,
            NativeScene.receives_started hevent ⟨rfl, _, rfl, rfl, rfl⟩⟩
        · exact ⟨_, NativeScene.receives_started hevent rfl⟩
      · exact ⟨n, NativeScene.receives_lifecycle hevent⟩
  | tick | touchDown | touchMove | touchUp | windowResized | windowFocusChanged | keyEvent =>
      exact ⟨_, rfl⟩

theorem motion_of_frames_touch : ∃ s s₁ s₂ : Shell (NativeScene ℝ) ℝ,
    (system .real allBound (NativeScene.side .real) ⟨none, false⟩).Run s
      [.activity (.vsync 33), fingerDown, .activity (.vsync 50)] s₁ ∧
    (system .real allBound (NativeScene.side .real) ⟨none, false⟩).Run s
      [.activity (.vsync 20), .activity (.vsync 33), fingerDown, .activity (.vsync 40),
        .activity (.vsync 50)] s₂ ∧
    ∃ sc₁ sc₂, s₁.native.scene = some sc₁ ∧ s₂.native.scene = some sc₂ ∧
      Scene.SameMotion sc₁ sc₂ ∧ sc₁.followerPosition .real = sc₂.followerPosition .real := by
  have hbackground : ∀ n : NativeScene ℝ, ∃ n', (NativeScene.side .real).background n n' :=
    fun n ↦ ⟨n, rfl⟩
  obtain ⟨s, h₀⟩ : ∃ s, (system .real allBound (NativeScene.side .real) ⟨none, false⟩).Run
      (initial .real ⟨none, false⟩) firstFrame s :=
    exists_run exists_receives hbackground (x := (_, _)) rfl
  obtain ⟨ops, hops, -⟩ := degraded_of_run h₀
  obtain ⟨hui, -⟩ := Prod.mk.inj (Option.some.inj
    ((rfl : attempted .real .initial firstFrame = some (_, _)).symm.trans hops))
  obtain ⟨s₁, h₁⟩ : ∃ s₁, (system .real allBound (NativeScene.side .real) ⟨none, false⟩).Run s
      [.activity (.vsync 33), fingerDown, .activity (.vsync 50)] s₁ :=
    exists_run exists_receives hbackground (x := (_, _)) (by rw [← hui]; rfl)
  obtain ⟨s₂, h₂⟩ : ∃ s₂, (system .real allBound (NativeScene.side .real) ⟨none, false⟩).Run s
      [.activity (.vsync 20), .activity (.vsync 33), fingerDown, .activity (.vsync 40),
        .activity (.vsync 50)] s₂ :=
    exists_run exists_receives hbackground (x := (_, _)) (by rw [← hui]; rfl)
  refine ⟨s, s₁, s₂, h₁, h₂, motion_of_frames h₀ ?_ ?_ h₁ h₂ ?_ ?_ rfl rfl⟩
  · rw [← hui]
    rfl
  · rw [← hui]
    decide
  · rw [← hui]
    exact ⟨by decide, by decide, trivial⟩
  · rw [← hui]
    exact ⟨by decide, by decide, by decide, by decide, trivial⟩

end Shell

end Konative.Android
