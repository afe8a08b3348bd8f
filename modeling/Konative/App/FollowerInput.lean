import Konative.App.FollowerMotion
import Konative.App.OnStarted
import Konative.Ecs.SnapshotTruncated

/-!
# What the follower follows

Touches and resizes reach the application between two ticks, and they share one flag and
one component: `follower_has_user_target_` says whether the follower's target is one a
user chose, and once it is, a resize leaves the target alone.  A session whose follower
came out of the state file starts with the flag set.

A session is a start and a history of calls.  Its follower's target is a function of the
two, whatever else the process does in between.
-/

namespace Konative.App

open Ecs Entt FileSystem

variable {F : Type}

namespace KonativeAndroidApp

/-! ## The follower a session starts with -/

/-- The target of the follower that `on_started` finds in a registry. -/
def foundTarget (r : AppRegistry F) : Option (Vec3 F) :=
  (r.viewFront .transform .pointerFollow).bind fun e ↦
    ((r.pool .pointerFollow).get? e).map PointerFollow.target

/-- Which it is depends on the components only. -/
theorem foundTarget_congr {r r' : AppRegistry F} (h : r.pool = r'.pool) :
    foundTarget r = foundTarget r' := by
  rcases r with ⟨s, pool⟩
  subst h
  rfl

/-- The target a session restores, when it restores a follower. -/
def restoredTarget (codec : Codec F) (l : Launch) (content : Option Bytes) : Option (Vec3 F) :=
  if l.hasConfigDirectory then
    match readSnapshotFile (AppComponent.codec codec) appStateComponents content appStateVersion
        (.empty : AppRegistry F) with
    | .returned (.ok _) r => foundTarget r
    | _ => none
  else none

/-- A state file that is refused, or the snapshot of some registry. -/
def SavedOrRefused (codec : Codec F) (content : Option Bytes) : Prop :=
  (∃ e r, readSnapshotFile (AppComponent.codec codec) appStateComponents content appStateVersion
      (.empty : AppRegistry F) = .returned (.error e) r) ∨
    ∃ src : AppRegistry F, src.Sound ∧ content = some (stateImage codec src)

/-- A registry with nothing in it that could be followed. -/
structure Unfollowed (r : AppRegistry F) : Prop where
  sound : r.Sound
  transform_eq : r.pool .transform = []
  follow_eq : r.pool .pointerFollow = []

namespace Unfollowed

variable {r r' : AppRegistry F} {e : Entity}

theorem of_vacant (h : Vacant r) : Unfollowed r :=
  ⟨⟨h.entities, fun i ↦ by rw [h.pool]; exact List.nodup_nil, fun i x hx ↦ by
    rw [h.pool] at hx
    cases hx⟩, h.pool _, h.pool _⟩

theorem foundTarget (h : Unfollowed r) : foundTarget r = none := by
  simp [KonativeAndroidApp.foundTarget, Registry.viewFront, Registry.keys, h.transform_eq,
    h.follow_eq]

theorem emplace (h : Unfollowed r) (hc : r.create = some (e, r')) :
    Unfollowed (r'.emplace .heartbeatCounter e .default) := by
  obtain ⟨-, -, hpool, -⟩ := Registry.create_eq_some h.sound hc
  refine ⟨h.sound.emplace_created hc _ _, ?_, ?_⟩
  · rw [Registry.emplace_pool_of_ne (by decide), hpool, h.transform_eq]
  · rw [Registry.emplace_pool_of_ne (by decide), hpool, h.follow_eq]

theorem createReflected (h : Unfollowed r) {reflected : Bool}
    (hc : createReflected r reflected = some r') : Unfollowed r' := by
  obtain ⟨⟨e, r₁⟩, hr₁, rfl⟩ := Option.map_eq_some_iff.mp hc
  have hnew : emplaceOrReplaceHeartbeat r₁ e = r₁.emplace .heartbeatCounter e .default :=
    if_neg (Registry.not_has_of_create h.sound hr₁ _)
  simp only [hnew, ite_self]
  exact h.emplace hr₁

theorem createHeartbeats (n : Nat) (h : Unfollowed r) (hc : createHeartbeats n r = some r') :
    Unfollowed r' := by
  induction n generalizing r with
  | zero => exact Option.some.inj hc ▸ h
  | succ n ih =>
      obtain ⟨⟨e, r₁⟩, hr₁, hn⟩ := Option.bind_eq_some_iff.mp hc
      exact ih (h.emplace hr₁) hn

theorem createPopulation (h : Unfollowed r) {reflected : Bool}
    (hc : createPopulation reflected r = some r') : Unfollowed r' := by
  obtain ⟨r₁, hr₁, hn⟩ := Option.bind_eq_some_iff.mp hc
  exact (h.createReflected hr₁).createHeartbeats _ hn

end Unfollowed

/-- The registry of a session is in order, and the follower in it, if any, is the one
that was restored. -/
theorem startRegistry_spec {codec : Codec F} {l : Launch} {content : Option Bytes}
    {r : AppRegistry F} (hfile : SavedOrRefused codec content)
    (h : startRegistry codec l content = some r) :
    r.Sound ∧ foundTarget r = restoredTarget codec l content := by
  unfold startRegistry at h
  unfold restoredTarget
  split at h
  · rename_i hdir
    rw [if_pos hdir]
    unfold restoreOrCreate at h
    rcases hfile with ⟨e, r₁, hread⟩ | ⟨src, hsrc, rfl⟩
    · rw [hread] at h ⊢
      have hr := (Unfollowed.of_vacant (vacant_of_error vacant_empty hread)).createPopulation h
      exact ⟨hr.sound, hr.foundTarget⟩
    · obtain ⟨r₁, hsound, -, -, (hread : readArchive (AppComponent.codec codec) _ _ _ = _)⟩ :=
        readArchive_own hsrc nodup_appStateComponents vacant_empty
      rw [stateImage, readSnapshotFile_image ⟨_, 0, appStateVersion⟩, hread] at h ⊢
      obtain rfl := Option.some.inj h
      exact ⟨hsound, rfl⟩
  · rename_i hdir
    rw [if_neg hdir]
    have hr := (Unfollowed.of_vacant vacant_empty).createPopulation h
    exact ⟨hr.sound, hr.foundTarget⟩

/-- A session on the snapshot of a registry restores the target of the follower in it. -/
theorem restoredTarget_stateImage (codec : Codec F) {l : Launch} {src : AppRegistry F}
    (hsrc : src.Sound) (hdir : l.hasConfigDirectory = true) :
    restoredTarget codec l (some (stateImage codec src)) = foundTarget src := by
  obtain ⟨r, -, -, hpool, (hread : readArchive (AppComponent.codec codec) _ _ _ = _)⟩ :=
    readArchive_own hsrc nodup_appStateComponents vacant_empty
  have hpool' : r.pool = src.pool := funext fun i ↦ by
    rw [hpool, if_pos (mem_appStateComponents i)]
  rw [restoredTarget, if_pos hdir, stateImage, readSnapshotFile_image ⟨_, 0, appStateVersion⟩,
    hread]
  exact foundTarget_congr hpool'

/-- The process has a follower, and its target is this one. -/
def Aimed (s : KonativeAndroidApp F) (target : Vec3 F) : Prop :=
  ∃ e follow, s.followerEntity = some e ∧ s.registry.Valid e ∧
    (s.registry.pool .pointerFollow).get? e = some follow ∧ follow.target = target

/-- The target of the process's follower. -/
def followerTarget (s : KonativeAndroidApp F) : Option (Vec3 F) :=
  s.followerEntity.bind fun e ↦
    ((s.registry.pool .pointerFollow).get? e).map PointerFollow.target

theorem Aimed.followerTarget {s : KonativeAndroidApp F} {target : Vec3 F} (h : s.Aimed target) :
    s.followerTarget = some target := by
  obtain ⟨e, follow, he, -, hfollow, rfl⟩ := h
  rw [KonativeAndroidApp.followerTarget, he, Option.bind_some, hfollow, Option.map_some]

section Populated

variable {s : KonativeAndroidApp F} {counters : Pool HeartbeatCounter} {follower : Entity}
  {transform : Transform F} {follow : PointerFollow F}

theorem populated_aimed (h : Populated s.registry counters follower transform follow)
    (target : Vec3 F) :
    ∃ follow', Populated (s.aimed target) counters follower transform follow' := by
  unfold aimed
  cases s.followerEntity with
  | none => exact ⟨follow, h⟩
  | some e => exact h.setTarget e target

theorem populated_onWindowResized (h : Populated s.registry counters follower transform follow)
    (o : FloatOps F) (width height : Int32) :
    ∃ follow', Populated (s.onWindowResized o width height).registry counters follower transform
      follow' := by
  unfold onWindowResized
  cases s.followerHasUserTarget with
  | true => exact ⟨follow, h⟩
  | false => exact populated_aimed h _

/-- In a population, the process's follower is the one that is found. -/
theorem foundTarget_of_populated (h : Populated s.registry counters follower transform follow)
    {target : Vec3 F} (htarget : s.followerTarget = some target) :
    foundTarget s.registry = some target := by
  obtain ⟨e, -, he⟩ := Option.bind_eq_some_iff.mp htarget
  obtain ⟨follow', hfollow, rfl⟩ := Option.map_eq_some_iff.mp he
  have hhas : s.registry.Has .pointerFollow e := Pool.contains_of_get? hfollow
  obtain rfl := (h.has_pointerFollow e).mp hhas
  rw [foundTarget, h.viewFront, Option.bind_some, hfollow, Option.map_some]

end Populated

theorem mem_keys_of_viewFront {r : AppRegistry F} {i j : AppComponent} {e : Entity}
    (h : r.viewFront i j = some e) : r.Has i e ∧ r.Has j e := by
  unfold Registry.viewFront at h
  split at h
  · have hi := List.find?_some h
    exact ⟨of_decide_eq_true hi, List.mem_reverse.mp (List.mem_of_find?_eq_some h)⟩
  · have hj := List.find?_some h
    exact ⟨List.mem_reverse.mp (List.mem_of_find?_eq_some h), of_decide_eq_true hj⟩

theorem exists_get?_of_has {r : AppRegistry F} (hr : r.Sound) {e : Entity} {i : AppComponent}
    (h : r.Has i e) : ∃ v, (r.pool i).get? e = some v ∧ r.Valid e := by
  obtain ⟨x, hx, rfl⟩ := List.mem_map.mp h
  exact ⟨x.2, (Pool.get?_eq_some (hr.keyed i)).mpr hx, hr.live i x hx⟩

/-- Whether it is found or created, there is a follower, and the flag says which. -/
theorem findOrCreateFollower_spec (o : FloatOps F) {r r' : AppRegistry F} {e : Entity} {b : Bool}
    (hr : r.Sound) (h : findOrCreateFollower o r = some (r', e, b)) :
    ∃ follow, r'.Valid e ∧ (r'.pool .pointerFollow).get? e = some follow ∧
      follow.target = (foundTarget r).getD ⟨o.ofInt 0, o.ofInt 0, o.ofInt 0⟩ ∧
      b = (foundTarget r).isSome := by
  unfold findOrCreateFollower at h
  unfold foundTarget
  cases hfront : r.viewFront .transform .pointerFollow with
  | some e' =>
      rw [hfront] at h
      obtain ⟨rfl, rfl, rfl⟩ : r = r' ∧ e' = e ∧ true = b := by simpa using h
      obtain ⟨follow, hfollow, hvalid⟩ := exists_get?_of_has hr (mem_keys_of_viewFront hfront).2
      refine ⟨follow, hvalid, hfollow, ?_, ?_⟩
      · rw [Option.bind_some, hfollow, Option.map_some, Option.getD_some]
      · rw [Option.bind_some, hfollow]
        rfl
  | none =>
      rw [hfront] at h
      obtain ⟨⟨e', r₁⟩, hc, hx⟩ := Option.map_eq_some_iff.mp h
      obtain ⟨rfl, rfl, rfl⟩ : (r₁.emplace .transform e' (.default o)).emplace .pointerFollow e'
          (.default o) = r' ∧ e' = e ∧ false = b := by simpa using hx
      have hnot : ¬ (r₁.emplace .transform e' (.default o)).Has .pointerFollow e' := by
        rw [Registry.Has, Registry.emplace_pool_of_ne (by decide)]
        exact Registry.not_has_of_create hr hc .pointerFollow
      have hvalid : r₁.Valid e' := by
        change e' ∈ r₁.live
        rw [(Registry.create_eq_some hr hc).2.1]
        exact List.mem_append_right _ List.mem_cons_self
      have hsound := (hr.emplace_created hc .transform (.default o)).emplace hvalid hnot
        (PointerFollow.default o)
      refine ⟨.default o, hvalid, (Pool.get?_eq_some (hsound.keyed _)).mpr ?_, rfl, rfl⟩
      rw [Registry.emplace_pool_self]
      exact List.mem_append_right _ List.mem_cons_self

/-- A session starts with its follower aimed where it was, or at the origin. -/
theorem aimed_onStarted (o : FloatOps F) {codec : Codec F} {path : String} {l : Launch}
    {fs : FileSystem String} {s : KonativeAndroidApp F}
    (hfile : SavedOrRefused codec (fs.content path)) (h : onStarted o codec path l fs = some s) :
    s.Aimed ((restoredTarget codec l (fs.content path)).getD ⟨o.ofInt 0, o.ofInt 0, o.ofInt 0⟩) ∧
      s.followerHasUserTarget = (restoredTarget codec l (fs.content path)).isSome := by
  obtain ⟨⟨r', e, b⟩, hx, rfl⟩ := Option.map_eq_some_iff.mp h
  rw [content_sweep] at hx
  obtain ⟨r, hr, hfollower⟩ := Option.bind_eq_some_iff.mp hx
  obtain ⟨hsound, hfound⟩ := startRegistry_spec hfile hr
  obtain ⟨follow, hvalid, hfollow, htarget, hb⟩ := findOrCreateFollower_spec o hsound hfollower
  rw [hfound] at htarget hb
  exact ⟨⟨e, follow, rfl, hvalid, hfollow, htarget⟩, hb⟩

/-! ## What moves the target -/

variable {o : FloatOps F} {s s' : KonativeAndroidApp F}

/-- Aiming a follower that is there. -/
theorem Aimed.aimed {target : Vec3 F} (h : s.Aimed target) (target' : Vec3 F) :
    ∃ e follow, s.followerEntity = some e ∧ (s.aimed target').Valid e ∧
      ((s.aimed target').pool .pointerFollow).get? e = some follow ∧ follow.target = target' := by
  obtain ⟨e, follow, he, hvalid, hfollow, -⟩ := h
  have hhas : s.registry.Has .pointerFollow e := Pool.contains_of_get? hfollow
  have haimed : s.aimed target' = s.registry.patch .pointerFollow fun e' f ↦
      if e' = e then { f with target := target' } else f := by
    rw [KonativeAndroidApp.aimed, he]
    exact if_pos ⟨hvalid, hhas⟩
  rw [haimed]
  refine ⟨e, { follow with target := target' }, he, hvalid, ?_, rfl⟩
  rw [Registry.patch_pool_self, Pool.get?_patch, hfollow, Option.map_some, if_pos rfl]

/-- A touch aims a follower that is there, and notes that a user did. -/
theorem Aimed.aimFollowerAt {target : Vec3 F} (h : s.Aimed target) (o : FloatOps F) (x y : F) :
    (s.aimFollowerAt o x y).Aimed ⟨x, y, o.ofInt 0⟩ ∧
      (s.aimFollowerAt o x y).followerHasUserTarget = true := by
  refine ⟨h.aimed ⟨x, y, o.ofInt 0⟩, ?_⟩
  obtain ⟨e, follow, he, hvalid, hfollow, -⟩ := h
  have hhas : s.registry.Has .pointerFollow e := Pool.contains_of_get? hfollow
  change (_ || s.followerEntity.any _) = true
  rw [he, Bool.or_eq_true]
  exact .inr (decide_eq_true ⟨hvalid, hhas⟩)

/-- A resize re-centres a follower no user has aimed. -/
theorem Aimed.onWindowResized {target : Vec3 F} (h : s.Aimed target) (o : FloatOps F)
    (width height : Int32) :
    (s.onWindowResized o width height).Aimed
      (if s.followerHasUserTarget then target
      else ⟨o.div (o.ofInt width.toInt) (o.ofInt 2), o.div (o.ofInt height.toInt) (o.ofInt 2),
        o.ofInt 0⟩) := by
  unfold KonativeAndroidApp.onWindowResized
  cases hflag : s.followerHasUserTarget with
  | true => exact h
  | false => exact h.aimed _

/-- Nothing else that the process does has to do with the target or the flag. -/
theorem Aimed.step {codec : Codec F} {path : String} {a : Action} {target : Vec3 F}
    (h : s.Aimed target) (hs : Step o codec path s a s') (ha : a ≠ .input) :
    s'.Aimed target ∧ s'.followerHasUserTarget = s.followerHasUserTarget := by
  cases hs with
  | touch => exact absurd rfl ha
  | windowResized => exact absurd rfl ha
  | tick dt reload =>
      refine ⟨?_, rfl⟩
      obtain ⟨e, follow, he, hvalid, hfollow, htarget⟩ := h
      refine ⟨e, follow, he, hvalid, ?_, htarget⟩
      change ((runSystems o dt s.registry).pool .pointerFollow).get? e = some follow
      rw [runSystems, moveFollowersTowardTargets, incrementHeartbeatCounters,
        Registry.patch_pool_of_ne (by decide), Registry.patch_pool_of_ne (by decide), hfollow]
  | skip | exchange | spawn | tryDequeue | dequeued | drained | write | written | clear | post
  | elsewhere => exact ⟨h, rfl⟩

end KonativeAndroidApp

/-! ## What moves the follower -/

namespace KonativeAndroidApp

variable {o : FloatOps F} {codec : Codec F} {path : String} {s s' : KonativeAndroidApp F}

/-- What a step of the process does to its registry is a run of motions. -/
theorem Step.motions {a : Action} (h : Step o codec path s a s') :
    ∃ run, s'.registry = Motion.after o s.registry run := by
  have haimed : ∀ v, ∃ run, s.aimed v = Motion.after o s.registry run := by
    intro v
    unfold aimed
    cases s.followerEntity with
    | none => exact ⟨[], rfl⟩
    | some e => exact ⟨[.aim e v], rfl⟩
  cases h with
  | tick dt reload => exact ⟨[.tick dt], rfl⟩
  | touch x y => exact haimed _
  | windowResized width height =>
      unfold onWindowResized
      cases s.followerHasUserTarget with
      | true => exact ⟨[], rfl⟩
      | false => exact haimed _
  | skip | exchange | spawn | tryDequeue | dequeued | drained | write | written | clear | post
  | elsewhere => exact ⟨[], rfl⟩

theorem motions_of_run {w : List Action} (h : (system o codec path).Run s w s') :
    ∃ run, s'.registry = Motion.after o s.registry run := by
  induction h with
  | nil s => exact ⟨[], rfl⟩
  | cons hs _ ih =>
      obtain ⟨run, hrun⟩ := hs.motions
      obtain ⟨run', hrun'⟩ := ih
      refine ⟨run ++ run', ?_⟩
      rw [hrun', hrun, Motion.after, Motion.after, Motion.after, List.foldl_append]

/-- In exact arithmetic, the follower of a process stays in the span of where it was and of
the targets it has had, whatever the threads do. -/
theorem spans_of_run {codec : Codec ℝ} {s s' : KonativeAndroidApp ℝ} {w : List Action}
    (h : (system .real codec path).Run s w s') {e : Entity} {t : Transform ℝ}
    {follow : PointerFollow ℝ} (hf : IsFollower s.registry e t follow) :
    ∃ run t' follow', s'.registry = Motion.after .real s.registry run ∧
      IsFollower s'.registry e t' follow' ∧
      ∀ a, Spans (t.position.coord a :: (Motion.targets .real e s.registry run).map
        fun v ↦ v.coord a) (t'.position.coord a) := by
  obtain ⟨run, hrun⟩ := motions_of_run h
  obtain ⟨t', follow', hf', hspans⟩ := hf.spans_after run
  exact ⟨run, t', follow', hrun, hrun ▸ hf', hspans⟩

end KonativeAndroidApp

/-! ## Sessions -/

/-- The process and the count of touches, which nothing but the touch handlers and the
overlay looks at. -/
structure TouchedApp (F : Type) where
  app : KonativeAndroidApp F
  touchEventCount : UInt64

/-- A call that reaches the application after `on_started`. -/
inductive Call (F : Type)
  | touchDown (x y : F)
  | touchMove (x y : F)
  | touchUp (x y : F)
  | windowResized (width height : Int32)
  /-- A part of a tick, or something another thread does. -/
  | other (a : KonativeAndroidApp.Action)

namespace Call

/-- The target the call asks for, when it is one that aims. -/
def aim (o : FloatOps F) : Call F → Option (Vec3 F)
  | touchDown x y | touchMove x y => some ⟨x, y, o.ofInt 0⟩
  | touchUp _ _ | windowResized _ _ | other _ => none

/-- The middle of the window, when the call says what that is. -/
def centre (o : FloatOps F) : Call F → Option (Vec3 F)
  | windowResized width height => some ⟨o.div (o.ofInt width.toInt) (o.ofInt 2),
      o.div (o.ofInt height.toInt) (o.ofInt 2), o.ofInt 0⟩
  | touchDown _ _ | touchMove _ _ | touchUp _ _ | other _ => none

/-- The call is one of the three touch calls. -/
def isTouch : Call F → Bool
  | touchDown _ _ | touchMove _ _ | touchUp _ _ => true
  | windowResized _ _ | other _ => false

end Call

namespace TouchedApp

/-- `on_touch_down`. -/
def onTouchDown (o : FloatOps F) (x y : F) (s : TouchedApp F) : TouchedApp F where
  app := s.app.aimFollowerAt o x y
  touchEventCount := s.touchEventCount + 1

/-- `on_touch_move`. -/
def onTouchMove (o : FloatOps F) (x y : F) (s : TouchedApp F) : TouchedApp F where
  app := s.app.aimFollowerAt o x y
  touchEventCount := s.touchEventCount + 1

/-- `on_touch_up`. -/
def onTouchUp (s : TouchedApp F) : TouchedApp F where
  app := s.app
  touchEventCount := s.touchEventCount + 1

/-- `on_window_resized`. -/
def onWindowResized (o : FloatOps F) (width height : Int32) (s : TouchedApp F) :
    TouchedApp F where
  app := s.app.onWindowResized o width height
  touchEventCount := s.touchEventCount

/-- One call of a session. -/
inductive Step (o : FloatOps F) (codec : Codec F) (path : String) :
    TouchedApp F → Call F → TouchedApp F → Prop
  | touchDown (s : TouchedApp F) (x y : F) (hpc : s.app.pc = .idle) :
      Step o codec path s (.touchDown x y) (s.onTouchDown o x y)
  | touchMove (s : TouchedApp F) (x y : F) (hpc : s.app.pc = .idle) :
      Step o codec path s (.touchMove x y) (s.onTouchMove o x y)
  | touchUp (s : TouchedApp F) (x y : F) (hpc : s.app.pc = .idle) :
      Step o codec path s (.touchUp x y) s.onTouchUp
  | windowResized (s : TouchedApp F) (width height : Int32) (hpc : s.app.pc = .idle) :
      Step o codec path s (.windowResized width height) (s.onWindowResized o width height)
  | other (s : TouchedApp F) (a : KonativeAndroidApp.Action) (app : KonativeAndroidApp F)
      (ha : a ≠ .input) (hs : KonativeAndroidApp.Step o codec path s.app a app) :
      Step o codec path s (.other a) { s with app }

/-- Sessions: what `on_started` left, and no touch yet. -/
def system (o : FloatOps F) (codec : Codec F) (path : String) : Lts (TouchedApp F) (Call F) where
  init s := s.touchEventCount = 0 ∧
    ∃ l fs, KonativeAndroidApp.onStarted o codec path l fs = some s.app
  step := Step o codec path

variable {o : FloatOps F} {codec : Codec F} {path : String} {s s' : TouchedApp F} {ℓ : Call F}

/-- A session is a run of the process: a call is one of its steps, or changes nothing
but the count. -/
theorem Step.app (h : Step o codec path s ℓ s') :
    s'.app = s.app ∨ ∃ a, KonativeAndroidApp.Step o codec path s.app a s'.app := by
  cases h with
  | touchDown x y hpc => exact .inr ⟨.input, .touch s.app x y hpc⟩
  | touchMove x y hpc => exact .inr ⟨.input, .touch s.app x y hpc⟩
  | touchUp x y hpc => exact .inl rfl
  | windowResized width height hpc => exact .inr ⟨.input, .windowResized s.app width height hpc⟩
  | other a app ha hs => exact .inr ⟨a, hs⟩

/-- Every state a session reaches is one the process reaches. -/
theorem reachable_app (h : (system o codec path).Reachable s) :
    (KonativeAndroidApp.system o codec path).Reachable s.app := by
  refine h.invariant (I := fun s ↦ (KonativeAndroidApp.system o codec path).Reachable s.app)
    (fun hinit ↦ ?_) fun hs hreach ↦ ?_
  · obtain ⟨-, l, fs, hstart⟩ := hinit
    obtain ⟨-, e, b, happ⟩ := KonativeAndroidApp.onStarted_eq_some hstart
    exact .of_init ⟨_, _, _, _, _, _, happ⟩
  · rcases hs.app with happ | ⟨a, ha⟩
    · exact happ ▸ hreach
    · exact hreach.step ha

/-! ## The target as a function of the history -/

/-- The target after a history: the last one a user asked for, else the one that was
restored, else the middle of the window, else the origin. -/
def target (o : FloatOps F) (restored : Option (Vec3 F)) (w : List (Call F)) : Vec3 F :=
  (w.filterMap (Call.aim o)).getLast?.getD <| restored.getD <|
    (w.filterMap (Call.centre o)).getLast?.getD ⟨o.ofInt 0, o.ofInt 0, o.ofInt 0⟩

/-- A user's target is what the follower has. -/
def userTarget (o : FloatOps F) (restored : Option (Vec3 F)) (w : List (Call F)) : Bool :=
  restored.isSome || w.any fun ℓ ↦ (ℓ.aim o).isSome

/-- The last of a history is that of its last call, if it has any. -/
theorem getLast?_filterMap_snoc {α β : Type} (f : α → Option β) (w : List α) (a : α) :
    ((w ++ [a]).filterMap f).getLast? = (f a).or (w.filterMap f).getLast? := by
  rw [List.filterMap_append]
  cases h : f a with
  | none => simp [h]
  | some b => simp [h]

theorem getLast?_filterMap_isSome {α β : Type} (f : α → Option β) (w : List α) :
    (w.filterMap f).getLast?.isSome = w.any fun a ↦ (f a).isSome := by
  induction w using List.reverseRecOn with
  | nil => rfl
  | append_singleton w a ih =>
      rw [getLast?_filterMap_snoc, Option.isSome_or, ih, List.any_append, Bool.or_comm]
      simp

/-- A call that does not aim keeps the target, and so does a resize where the target is a
user's. -/
theorem target_snoc_of_aim_none {restored : Option (Vec3 F)} {w : List (Call F)}
    (ha : ℓ.aim o = none) (h : ℓ.centre o = none ∨ userTarget o restored w = true) :
    target o restored (w ++ [ℓ]) = target o restored w := by
  unfold target
  rw [getLast?_filterMap_snoc, getLast?_filterMap_snoc, ha, Option.none_or]
  rcases h with h | h
  · rw [h, Option.none_or]
  · rcases Bool.or_eq_true_iff.mp h with h | h
    · obtain ⟨v, rfl⟩ := Option.isSome_iff_exists.mp h
      rfl
    · rw [← getLast?_filterMap_isSome] at h
      obtain ⟨v, hv⟩ := Option.isSome_iff_exists.mp h
      rw [hv]
      rfl

/-- What a history makes of a session that has restored this target. -/
structure Driven (o : FloatOps F) (restored : Option (Vec3 F)) (w : List (Call F))
    (s : TouchedApp F) : Prop where
  aimed : s.app.Aimed (target o restored w)
  flag : s.app.followerHasUserTarget = userTarget o restored w
  count : s.touchEventCount = UInt64.ofNat (w.countP Call.isTouch)

namespace Driven

variable {restored : Option (Vec3 F)} {w : List (Call F)}

theorem count_snoc (h : Driven o restored w s) (hℓ : ℓ.isTouch = true) :
    s.touchEventCount + 1 = UInt64.ofNat ((w ++ [ℓ]).countP Call.isTouch) := by
  rw [h.count, List.countP_append, List.countP_singleton, if_pos hℓ, UInt64.ofNat_add]
  rfl

theorem count_snoc_of_false (h : Driven o restored w s) (hℓ : ℓ.isTouch = false) :
    s.touchEventCount = UInt64.ofNat ((w ++ [ℓ]).countP Call.isTouch) := by
  rw [h.count, List.countP_append, List.countP_singleton, hℓ]
  rfl

theorem userTarget_snoc (ℓ : Call F) :
    userTarget o restored (w ++ [ℓ]) = (userTarget o restored w || (ℓ.aim o).isSome) := by
  rw [userTarget, userTarget, List.any_append, Bool.or_assoc]
  congr 2
  simp

/-- Both touch handlers that aim. -/
theorem aim (h : Driven o restored w s) {x y : F} (hℓ : ℓ.aim o = some ⟨x, y, o.ofInt 0⟩)
    (htouch : ℓ.isTouch = true) :
    Driven o restored (w ++ [ℓ]) (s.onTouchDown o x y) := by
  obtain ⟨haimed, hflag⟩ := h.aimed.aimFollowerAt o x y
  refine ⟨?_, ?_, h.count_snoc htouch⟩
  · rw [target, getLast?_filterMap_snoc, hℓ]
    exact haimed
  · rw [userTarget_snoc, hℓ, Option.isSome_some, Bool.or_true]
    exact hflag

/-- A call that does not aim. -/
theorem of_aim_none (h : Driven o restored w s) (ha : ℓ.aim o = none)
    (hcentre : ℓ.centre o = none ∨ userTarget o restored w = true)
    (haimed : s'.app.Aimed (target o restored w))
    (hflag : s'.app.followerHasUserTarget = s.app.followerHasUserTarget)
    (hcount : s'.touchEventCount = UInt64.ofNat ((w ++ [ℓ]).countP Call.isTouch)) :
    Driven o restored (w ++ [ℓ]) s' := by
  refine ⟨?_, ?_, hcount⟩
  · rw [target_snoc_of_aim_none ha hcentre]
    exact haimed
  · rw [userTarget_snoc, ha, Option.isSome_none, Bool.or_false, hflag, h.flag]

theorem step (h : Driven o restored w s) (hs : Step o codec path s ℓ s') :
    Driven o restored (w ++ [ℓ]) s' := by
  cases hs with
  | touchDown x y => exact h.aim rfl rfl
  | touchMove x y => exact h.aim rfl rfl
  | touchUp x y => exact h.of_aim_none rfl (.inl rfl) h.aimed rfl (h.count_snoc rfl)
  | windowResized width height =>
      have haimed := h.aimed.onWindowResized o width height
      have hcount := h.count_snoc_of_false (ℓ := .windowResized width height) rfl
      rw [h.flag] at haimed
      cases huser : userTarget o restored w with
      | true =>
          rw [huser] at haimed
          exact h.of_aim_none rfl (.inr huser) haimed rfl hcount
      | false =>
          -- nothing was restored and nobody has touched: the target is the middle
          rw [huser] at haimed
          obtain ⟨hrestored, hany⟩ := Bool.or_eq_false_iff.mp huser
          rw [← getLast?_filterMap_isSome] at hany
          refine ⟨?_, ?_, hcount⟩
          · rw [target, getLast?_filterMap_snoc, getLast?_filterMap_snoc,
              Option.isNone_iff_eq_none.mp (Option.isSome_eq_false_iff.mp hany),
              Option.isNone_iff_eq_none.mp (Option.isSome_eq_false_iff.mp hrestored)]
            exact haimed
          · rw [userTarget_snoc, huser]
            exact h.flag.trans huser
  | other a app ha happ =>
      obtain ⟨haimed, hflag⟩ := h.aimed.step happ ha
      exact h.of_aim_none rfl (.inl rfl) haimed hflag (h.count_snoc_of_false rfl)

end Driven

open KonativeAndroidApp in
/-- Which input drives the follower, in a session that finds no state file, one it
refuses, or one that a session saved; in the last, the target it restores is the one that
was saved. -/
theorem follower_driven_by {l : Launch} {fs : FileSystem String} {app : KonativeAndroidApp F}
    (hfile : SavedOrRefused codec (fs.content path))
    (hstart : onStarted o codec path l fs = some app) {w : List (Call F)}
    (hrun : (system o codec path).Run ⟨app, 0⟩ w s) :
    (∀ src : AppRegistry F, src.Sound → l.hasConfigDirectory = true →
      fs.content path = some (stateImage codec src) →
        restoredTarget codec l (fs.content path) = foundTarget src) ∧
      s.app.followerTarget = some (target o (restoredTarget codec l (fs.content path)) w) ∧
      (s.app.followerHasUserTarget = true ↔
        (restoredTarget codec l (fs.content path)).isSome ∨ ∃ ℓ ∈ w, (ℓ.aim o).isSome) ∧
      s.touchEventCount = UInt64.ofNat (w.countP Call.isTouch) ∧
      ∀ ℓ s', Step o codec path s ℓ s' → ℓ.aim o = none →
        (ℓ.centre o = none ∨ s.app.followerHasUserTarget = true) →
        s'.app.followerTarget = s.app.followerTarget := by
  obtain ⟨haimed, hflag⟩ := aimed_onStarted o hfile hstart
  have hinit : Driven o (restoredTarget codec l (fs.content path)) [] ⟨app, 0⟩ :=
    ⟨haimed, hflag.trans (Bool.or_false _).symm, rfl⟩
  have h : Driven o (restoredTarget codec l (fs.content path)) w s :=
    hrun.history (P := Driven o _) hinit fun _ hd hs ↦ hd.step hs
  refine ⟨fun src hsrc hdir hsaved ↦ ?_, h.aimed.followerTarget, ?_, h.count,
    fun ℓ s' hs ha hcentre ↦ ?_⟩
  · rw [hsaved, restoredTarget_stateImage codec hsrc hdir]
  · rw [h.flag, userTarget, Bool.or_eq_true_iff, List.any_eq_true]
  · rw [(h.step hs).aimed.followerTarget, h.aimed.followerTarget]
    rw [h.flag] at hcentre
    rw [target_snoc_of_aim_none ha hcentre]

open KonativeAndroidApp in
/-- A first session that is resized, touched at (3, 4), resized again and let go; and a
second one, on a snapshot of its end, that is resized and let go. -/
theorem follower_driven_by_touch :
    let l : Launch := ⟨true, ⟨120, 300⟩, [], true⟩
    ∃ app s app' s', onStarted .whole Codec.u32 "state.bin" l .empty = some app ∧
      (system .whole Codec.u32 "state.bin").Run ⟨app, 0⟩
        [.windowResized 100 200, .touchDown 3 4, .windowResized 200 100, .touchUp 5 6] s ∧
      s.app.followerTarget = some ⟨3, 4, 0⟩ ∧ s.app.followerHasUserTarget = true ∧
      s.touchEventCount = 2 ∧
      onStarted .whole Codec.u32 "state.bin" l (FileSystem.empty.written "state.bin"
        (stateImage Codec.u32 s.app.registry)) = some app' ∧
      (system .whole Codec.u32 "state.bin").Run ⟨app', 0⟩ [.windowResized 300 300, .touchUp 1 1]
        s' ∧
      s'.app.followerTarget = some ⟨3, 4, 0⟩ ∧ s'.app.followerHasUserTarget = true ∧
      s'.touchEventCount = 1 := by
  intro l
  have hidle : ∀ {fs app}, onStarted .whole Codec.u32 "state.bin" l fs = some app →
      app.pc = .idle := by
    intro fs app hstart
    obtain ⟨-, e, b, happ⟩ := onStarted_eq_some hstart
    rw [happ]
    rfl
  have hnone : (FileSystem.empty : FileSystem String).content "state.bin" = none := rfl
  obtain ⟨app, counters, e, hstart, hpop, -⟩ := onStarted_of_none .whole Codec.u32 l hnone
  have hpc := hidle hstart
  have hrun : (system .whole Codec.u32 "state.bin").Run ⟨app, 0⟩
      [.windowResized 100 200, .touchDown 3 4, .windowResized 200 100, .touchUp 5 6] _ :=
    .cons (.windowResized _ 100 200 hpc) <| .cons (.touchDown _ 3 4 hpc) <|
      .cons (.windowResized _ 200 100 hpc) <| .single (.touchUp _ 5 6 hpc)
  obtain ⟨-, htarget, hflag, hcount, -⟩ := follower_driven_by (.inl ⟨_, _, rfl⟩) hstart hrun
  -- what the first session leaves is a population, so the second one restores it
  let resized := app.onWindowResized .whole 100 200
  let touched := resized.aimFollowerAt .whole 3 4
  let left := touched.onWindowResized .whole 200 100
  obtain ⟨_, hresized⟩ := populated_onWindowResized hpop .whole 100 200
  obtain ⟨_, htouched⟩ := populated_aimed (s := resized) hresized ⟨3, 4, 0⟩
  obtain ⟨_, hleft⟩ := populated_onWindowResized (s := touched) htouched .whole 200 100
  have hcontent := written_content_self (.empty : FileSystem String) "state.bin"
    (stateImage Codec.u32 left.registry)
  obtain ⟨app', hstart', -⟩ := onStarted_of_snapshot .whole l hleft rfl hcontent
  have hpc' := hidle hstart'
  have hrun' : (system .whole Codec.u32 "state.bin").Run ⟨app', 0⟩
      [.windowResized 300 300, .touchUp 1 1] _ :=
    .cons (.windowResized _ 300 300 hpc') <| .single (.touchUp _ 1 1 hpc')
  obtain ⟨hrestored, htarget', hflag', hcount', -⟩ :=
    follower_driven_by (.inr ⟨_, hleft.sound, hcontent⟩) hstart' hrun'
  have hfound := (hrestored _ hleft.sound rfl hcontent).trans
    (foundTarget_of_populated hleft htarget)
  refine ⟨app, _, app', _, hstart, hrun, htarget, hflag.mpr (.inr ⟨.touchDown 3 4, by simp, rfl⟩),
    hcount, hstart', hrun', ?_, hflag'.mpr (.inl ?_), hcount'⟩
  · rw [htarget', hfound]
    rfl
  · rw [hfound]
    rfl

end TouchedApp

end Konative.App
