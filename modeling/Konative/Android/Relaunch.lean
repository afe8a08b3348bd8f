import Konative.Android.NativeApp
import Konative.Android.FrameTicker
import Konative.App.Durability

/-!
# Relaunches

A process can be killed at any time, and with the next launch of the application another
one begins.  What goes from one to the next is the files: `on_started` finds the state
file that a writer of an earlier process has renamed into place, or none.

A `Phone` is the shell of the process that runs now.  Its first frame has no time on the
clock, so the dot is seen where it was saved before it glides on (`Phone.resumes`).
-/

namespace Konative.App

open Entt Ecs FileSystem

variable {F : Type} {o : FloatOps F} {codec : Codec F} {path : String}

/-! ## Where the follower starts -/

/-- The position of the follower of a saved registry, or that of a new one. -/
def savedPosition (o : FloatOps F) (saved : Option (AppRegistry F)) : Vec3 F :=
  ((saved.bind fun r ↦ (r.viewFront .transform .pointerFollow).bind fun e ↦
    (r.pool .transform).get? e).map Transform.position).getD (Transform.default o).position

theorem Populated.savedPosition {r : AppRegistry F} {counters : Pool HeartbeatCounter}
    {follower : Entity} {transform : Transform F} {follow : PointerFollow F}
    (h : Populated r counters follower transform follow) (o : FloatOps F) :
    savedPosition o (some r) = transform.position := by
  rw [App.savedPosition, Option.bind_some, h.viewFront, Option.bind_some, h.transform_eq,
    Pool.get?_singleton]
  rfl

namespace KonativeAndroidApp

variable {s : KonativeAndroidApp F} {l : Launch} {fs : FileSystem String}
  {counters : Pool HeartbeatCounter} {follower : Entity} {transform : Transform F}
  {follow : PointerFollow F}

/-- The follower that was found or created is the one of the population. -/
theorem followerEntity_onStarted (h : onStarted o codec path l fs = some s)
    (hpop : Populated s.registry counters follower transform follow) :
    s.followerEntity = some follower := by
  obtain ⟨⟨r', e, b⟩, hx, rfl⟩ := Option.map_eq_some_iff.mp h
  obtain ⟨r, -, hfollower⟩ := Option.bind_eq_some_iff.mp hx
  have hhas : r'.Has .transform e := by
    unfold findOrCreateFollower at hfollower
    split at hfollower
    · rename_i hfront
      obtain ⟨rfl, rfl, -⟩ : r = r' ∧ _ = e ∧ true = b := by simpa using hfollower
      exact (mem_keys_of_viewFront hfront).1
    · obtain ⟨⟨e', r₁⟩, -, hx⟩ := Option.map_eq_some_iff.mp hfollower
      obtain ⟨rfl, rfl, -⟩ : _ = r' ∧ e' = e ∧ false = b := by simpa using hx
      rw [Registry.Has, Registry.emplace_pool_of_ne (by decide), Registry.emplace_pool_self,
        Pool.Contains, List.map_append]
      exact List.mem_append_right _ List.mem_cons_self
  exact congrArg some ((hpop.has_transform e).mp hhas)

theorem followerPosition_of_populated
    (hpop : Populated s.registry counters follower transform follow)
    (he : s.followerEntity = some follower) : s.followerPosition o = transform.position := by
  have hvalid : s.registry.Valid follower :=
    hpop.live.mem_iff.mpr (List.mem_append_right _ List.mem_cons_self)
  rw [followerPosition, he, Option.bind_some, if_pos hvalid, hpop.transform_eq,
    Pool.get?_singleton]
  rfl

/-- A tick of no time moves nothing. -/
theorem followerPosition_beginTick {deltaSeconds : F}
    (hdelta : o.le deltaSeconds (o.ofInt 0) = true) (reload : Option AppConfig)
    (s : KonativeAndroidApp F) :
    (s.beginTick o deltaSeconds reload).followerPosition o = s.followerPosition o := by
  have happroach (t : Transform F) (target : Vec3 F) (rate : F) :
      approach o t target rate deltaSeconds = t := by
    rw [approach, hdelta, Bool.or_true, if_pos rfl]
  have hpool : (runSystems o deltaSeconds s.registry).pool .transform =
      s.registry.pool .transform := by
    rw [runSystems, moveFollowersTowardTargets, Registry.patch_pool_self,
      incrementHeartbeatCounters, Registry.patch_pool_of_ne (by decide)]
    refine Eq.trans (congrArg _ ?_) (Pool.patch_id _)
    funext e t
    split
    · exact happroach t _ _
    · rfl
  change (s.followerEntity.bind fun e ↦ if s.registry.Valid e then
    (((runSystems o deltaSeconds s.registry).pool .transform).get? e).map Transform.position
    else none).getD _ = _
  rw [hpool]
  rfl

theorem Ticks.followerPosition {deltaSeconds : F} {s' : KonativeAndroidApp F}
    (h : s.Ticks o codec path deltaSeconds s') (hdelta : o.le deltaSeconds (o.ofInt 0) = true) :
    s'.followerPosition o = s.followerPosition o := by
  obtain ⟨reload, h⟩ := h.undisturbed
  rw [h.followerPosition, followerPosition_beginTick hdelta]

end KonativeAndroidApp

/-! ## What a process finds -/

/-- The files of a phone whose last snapshot, if any, is of this registry. -/
def Stored (o : FloatOps F) (codec : Codec F) (path : String) (found : FileSystem String)
    (saved : Option (AppRegistry F)) : Prop :=
  (saved = none ∧ found.content path = none) ∨
    ∃ q, (Session.system o codec path).Reachable q ∧ q.app.fs = found ∧ q.durable = saved

namespace Stored

variable {found : FileSystem String} {saved : Option (AppRegistry F)}
  {l : KonativeAndroidApp.Launch} {app : KonativeAndroidApp F}

/-- It begins a session, -/
theorem session (h : Stored o codec path found saved)
    (hopen : found.content path ≠ none → l.hasConfigDirectory = true)
    (hstart : KonativeAndroidApp.onStarted o codec path l found = some app) :
    (Session.system o codec path).Reachable ⟨app, saved, app.registry⟩ := by
  rcases h with ⟨rfl, hnone⟩ | ⟨q, hq, rfl, rfl⟩
  · exact .of_init ⟨found, l, app, hnone, hstart, rfl⟩
  · exact hq.step (Session.Step.relaunch q l app hopen hstart)

/-- The state file is the snapshot of a population, if there is one. -/
theorem content (h : Stored o codec path found saved) :
    found.content path = saved.map (stateImage codec) ∧
      ∀ r, saved = some r → Session.IsPopulated r := by
  rcases h with ⟨rfl, hnone⟩ | ⟨q, hq, rfl, rfl⟩
  · exact ⟨hnone, nofun⟩
  · have hinv := Session.inv_of_reachable hq
    exact ⟨hinv.content, fun r hr ↦ hinv.isPopulated_durable hr⟩

/-- with the follower where it was saved. -/
theorem followerPosition (h : Stored o codec path found saved)
    (hopen : found.content path ≠ none → l.hasConfigDirectory = true)
    (hstart : KonativeAndroidApp.onStarted o codec path l found = some app) :
    app.followerPosition o = savedPosition o saved := by
  obtain ⟨hcontent, hpopulated⟩ := h.content
  cases saved with
  | none =>
      obtain ⟨s, counters, e, hs, hpop, -⟩ :=
        KonativeAndroidApp.onStarted_of_none o codec l hcontent
      obtain rfl := Option.some.inj (hs.symm.trans hstart)
      exact KonativeAndroidApp.followerPosition_of_populated hpop
        (KonativeAndroidApp.followerEntity_onStarted hs hpop)
  | some r =>
      obtain ⟨counters, e, transform, follow, hr⟩ := hpopulated r rfl
      have hdir := hopen (by rw [hcontent]; exact Option.some_ne_none _)
      obtain ⟨s, hs, hpop⟩ := KonativeAndroidApp.onStarted_of_snapshot o l hr hdir hcontent
      obtain rfl := Option.some.inj (hs.symm.trans hstart)
      rw [hr.savedPosition]
      exact KonativeAndroidApp.followerPosition_of_populated hpop
        (KonativeAndroidApp.followerEntity_onStarted hs hpop)

end Stored

end Konative.App

namespace Konative.Android

open App KonativeAndroidApp

variable {F : Type} {o : FloatOps F} {codec : Codec F} {path : String}

/-! ## The application and the files of its process -/

/-- The application object of a process, and the files the process has found. -/
structure Installed (F : Type) where
  found : FileSystem String
  native : NativeApp F

namespace Installed

/-- What the functions bound to the native methods do: `on_started` finds these files, and
can open a state file that exists. -/
def Receives (o : FloatOps F) (codec : Codec F) (path : String) (q : Request F)
    (n n' : Installed F) : Prop :=
  NativeApp.Receives o codec path q n.native n'.native ∧ n'.found = n.found ∧
    ∀ s, n.native.app = none → n'.native.app = some s → ∃ l : Launch,
      (n.found.content path ≠ none → l.hasConfigDirectory = true) ∧
        onStarted o codec path l n.found = some s.app

/-- The snapshot writers, if there are any. -/
def Passes (o : FloatOps F) (codec : Codec F) (path : String) (n n' : Installed F) : Prop :=
  NativeApp.Passes o codec path n.native n'.native ∧ n'.found = n.found

/-- This as a native side. -/
def side (o : FloatOps F) (codec : Codec F) (path : String) : NativeSide (Installed F) F where
  receive := Receives o codec path
  background := Passes o codec path
  tickCount n := (NativeApp.side o codec path).tickCount n.native
  touchCount n := (NativeApp.side o codec path).touchCount n.native
  followerX n := (NativeApp.side o codec path).followerX n.native
  followerY n := (NativeApp.side o codec path).followerY n.native

theorem refines_native (o : FloatOps F) (codec : Codec F) (path : String) :
    (side o codec path).Refines (NativeApp.side o codec path) native where
  receive h := h.1
  background h := h.1
  answer q n d := by cases q <;> rfl

/-! ### A process is a session -/

variable {found : FileSystem String} {saved : Option (AppRegistry F)} {n n' : Installed F}
  {q : Request F}

/-- The application is that of a session which began with what was saved. -/
structure InSession (o : FloatOps F) (codec : Codec F) (path : String)
    (found : FileSystem String) (saved : Option (AppRegistry F)) (n : Installed F) : Prop where
  found : n.found = found
  idle : n.native.Idle
  session : ∀ s, n.native.app = some s → ∃ q, (Session.system o codec path).Reachable q ∧
    q.app = s.app ∧ q.origin = saved

/-- What the process does is done in the session. -/
theorem InSession.run (hn : InSession o codec path found saved n) {s : TouchedApp F}
    (hs : n.native.app = some s) {w : List Action} {app : KonativeAndroidApp F}
    (h : (KonativeAndroidApp.system o codec path).Run s.app w app) :
    ∃ q, (Session.system o codec path).Reachable q ∧ q.app = app ∧ q.origin = saved := by
  obtain ⟨q, hq, happ, rfl⟩ := hn.session s hs
  rw [← happ] at h
  exact ⟨_, hq.run (Session.run_app h), rfl, rfl⟩

theorem Receives.inSession (h : Receives o codec path q n n')
    (hstored : Stored o codec path found saved) (hn : InSession o codec path found saved n) :
    InSession o codec path found saved n' := by
  obtain ⟨hreceives, hfound, hstart⟩ := h
  refine ⟨hfound.trans hn.found, hreceives.idle hn.idle, ?_⟩
  obtain ⟨found, native⟩ := n
  obtain ⟨found', native'⟩ := n'
  obtain rfl := hn.found
  cases hreceives with
  | started event misused l fs app hevent h =>
      intro s hs
      obtain ⟨l, hopen, hstarted⟩ := hstart s rfl hs
      exact ⟨_, hstored.session hopen hstarted, rfl, rfl⟩
  | startedAgain | lifecycle | tickUnstarted | windowFocusChanged | keyEvent => exact hn.session
  | tick deltaSeconds misused s app h =>
      intro s' hs'
      obtain rfl := Option.some.inj hs'
      obtain ⟨hpc, -, reload, w, -, hrun⟩ := h
      exact hn.run rfl (.cons (.tick s.app deltaSeconds reload hpc) hrun)
  | touchDown _ x y | touchMove _ x y =>
      intro s' hs'
      obtain ⟨s, hs, rfl⟩ := Option.map_eq_some_iff.mp hs'
      exact hn.run hs (.single (.touch s.app x y (hn.idle s hs)))
  | touchUp =>
      intro s' hs'
      obtain ⟨s, hs, rfl⟩ := Option.map_eq_some_iff.mp hs'
      exact hn.session s hs
  | windowResized width height =>
      intro s' hs'
      obtain ⟨s, hs, rfl⟩ := Option.map_eq_some_iff.mp hs'
      exact hn.run hs (.single (.windowResized s.app width height (hn.idle s hs)))

theorem Passes.inSession (h : Passes o codec path n n')
    (hn : InSession o codec path found saved n) : InSession o codec path found saved n' := by
  obtain ⟨hpasses, hfound⟩ := h
  refine ⟨hfound.trans hn.found, (hpasses.answers (o := o) hn.idle).2.2.2, ?_⟩
  obtain ⟨found, native⟩ := n
  obtain ⟨found', native'⟩ := n'
  cases hpasses with
  | unstarted => exact nofun
  | started misused s app h =>
      intro s' hs'
      obtain rfl := Option.some.inj hs'
      obtain ⟨-, w, -, hrun⟩ := h
      exact hn.run rfl hrun

/-! ### The follower stays until time passes -/

/-- The follower is where it was saved. -/
def Held (o : FloatOps F) (saved : Option (AppRegistry F)) (n : Installed F) : Prop :=
  n.native.app.isSome = true → n.native.followerPosition o = savedPosition o saved

/-- A request lets no time pass. -/
def Timeless (o : FloatOps F) : Request F → Prop
  | .tick deltaSeconds => o.le deltaSeconds (o.ofInt 0) = true
  | _ => True

theorem Receives.held (h : Receives o codec path q n n')
    (hstored : Stored o codec path n.found saved) (hq : Timeless o q) (hn : Held o saved n) :
    Held o saved n' := by
  obtain ⟨hreceives, -, hstart⟩ := h
  intro happ
  have hanswers := hreceives.answers.2.2
  obtain ⟨found, native⟩ := n
  obtain ⟨found', native'⟩ := n'
  cases hreceives with
  | started event misused l fs app hevent h =>
      obtain ⟨l, hopen, hstarted⟩ := hstart _ rfl rfl
      exact hstored.followerPosition hopen hstarted
  | startedAgain => exact hn rfl
  | tickUnstarted => cases happ
  | tick deltaSeconds misused s app h => exact (h.followerPosition hq).trans (hn rfl)
  | lifecycle _ _ hevent => exact hn happ
  | windowFocusChanged | keyEvent => exact hn happ
  | touchDown | touchMove | touchUp | windowResized =>
      exact (hanswers rfl nofun).trans (hn (Option.isSome_map.symm.trans happ))

theorem Passes.held (h : Passes o codec path n n') (hidle : n.native.Idle)
    (hn : Held o saved n) : Held o saved n' := by
  obtain ⟨hpasses, -⟩ := h
  intro happ
  rw [(hpasses.answers hidle).2.2.1]
  exact hn (hpasses.keeps.2 ▸ happ)

theorem inSession_of_run {v : List (Option (Request F))}
    (hstored : Stored o codec path found saved) (h : (side o codec path).lts.Run n v n')
    (hn : InSession o codec path found saved n) : InSession o codec path found saved n' := by
  refine h.invariant (fun {n q n'} h hn ↦ ?_) hn
  cases q with
  | none => exact Passes.inSession h hn
  | some q => exact Receives.inSession h hstored hn

theorem held_of_run {v : List (Option (Request F))} (hstored : Stored o codec path found saved)
    (h : (side o codec path).lts.Run n v n') (hv : ∀ q, some q ∈ v → Timeless o q)
    (hn : InSession o codec path found saved n) (hheld : Held o saved n) : Held o saved n' := by
  induction h with
  | nil n => exact hheld
  | @cons n n₁ n' q v h _ ih =>
      have hv' : ∀ q, some q ∈ v → Timeless o q := fun q hq ↦ hv q (List.mem_cons_of_mem _ hq)
      cases q with
      | none => exact ih hv' (Passes.inSession h hn) (Passes.held h hn.idle hheld)
      | some q =>
          refine ih hv' (Receives.inSession h hstored hn) ?_
          exact Receives.held h (hn.found ▸ hstored) (hv q List.mem_cons_self) hheld

end Installed

/-! ## The first frame -/

/-- The delta of a tick. -/
def NativeCall.deltaNanos : NativeCall → Option Int
  | .tick deltaNanos => some deltaNanos
  | .start | .resume | .pause | .destroy => none

namespace EntryPoint

/-- The deltas of the ticks asked for. -/
def ticks (s : EntryPoint) : List Int := s.native.filterMap NativeCall.deltaNanos

/-- Until there is a tick there is no last frame, and so the first tick is of no time. -/
structure FirstFrame (s : EntryPoint) : Prop where
  scheduled : s.ticker.Scheduled
  last : s.ticks = [] → s.ticker.lastFrameTimeNanos = 0
  first : ∀ d, s.ticks.head? = some d → d = 0

theorem firstFrame_initial : FirstFrame initial := ⟨rfl, fun _ ↦ rfl, nofun⟩

variable {s s' : EntryPoint} {e : Event}

/-- A callback asks for no tick. -/
theorem ticks_onCallback (a : Nat) (c : Callback) (s : EntryPoint) :
    (onCallback true a c s).ticks = s.ticks := by
  unfold ticks
  rw [(onCallback_native a c s).1, List.filterMap_append]
  cases c with
  | created => cases s.nativeStarted <;> exact List.append_nil _
  | resumed | paused | destroyed | started | stopped | saveInstanceState =>
      exact List.append_nil _

theorem FirstFrame.next (h : next true s e = some s') (hs : s.FirstFrame) : s'.FirstFrame := by
  have hscheduled := scheduled_next h hs.scheduled
  cases e with
  | callback a c =>
      obtain ⟨p, -, rfl⟩ := Option.map_eq_some_iff.mp h
      refine ⟨hscheduled, fun hnil ↦ ?_, fun d hd ↦ hs.first d ?_⟩
      · rw [ticks_onCallback] at hnil
        have hlast : s.ticker.lastFrameTimeNanos = 0 := hs.last hnil
        rw [onCallback_ticker]
        cases c with
        | resumed =>
            change s.ticker.start.lastFrameTimeNanos = 0
            unfold FrameTicker.start
            split
            · exact hlast
            · rfl
        | created | started | paused | stopped | saveInstanceState | destroyed => exact hlast
      · rw [ticks_onCallback] at hd
        exact hd
  | vsync t =>
      obtain rfl := Option.some.inj h
      obtain ⟨hticker, hnative⟩ := vsync_ticker true t s
      cases ha : s.ticker.active with
      | false =>
          rw [hs.scheduled.vsync_inactive ha] at hticker hnative
          have hticks : (vsync true t s).ticks = s.ticks := by
            rw [ticks, hnative]
            exact congrArg (List.filterMap _) (List.append_nil _)
          refine ⟨hscheduled, fun hnil ↦ ?_, fun d hd ↦ hs.first d (hticks ▸ hd)⟩
          rw [hticker]
          exact hs.last (hticks ▸ hnil)
      | true =>
          rw [hs.scheduled.vsync_active ha] at hnative
          have hticks : (vsync true t s).ticks = s.ticks ++
              [if s.ticker.lastFrameTimeNanos = 0 then 0 else t - s.ticker.lastFrameTimeNanos] := by
            rw [ticks, hnative, if_pos rfl, List.filterMap_append]
            rfl
          refine ⟨hscheduled, fun hnil ↦ ?_, fun d hd ↦ ?_⟩
          · rw [hticks] at hnil
            exact absurd hnil (List.append_ne_nil_of_right_ne_nil _ (List.cons_ne_nil _ _))
          · rw [hticks] at hd
            cases hold : s.ticks with
            | nil =>
                rw [hold, if_pos (hs.last hold)] at hd
                exact (Option.some.inj hd).symm
            | cons d' ds =>
                rw [hold] at hd
                exact hs.first d (hold ▸ hd)

end EntryPoint

namespace Shell

variable {N : Type} {ui ui' : EntryPoint} {w : List (Event F)} {ops : List (NativeOp F)}

/-- The ticks among the calls of a list. -/
theorem filter_isTick_asked (o : FloatOps F) (asked : List NativeCall) :
    (asked.flatMap (NativeCall.ops o)).filter NativeOp.isTick =
      (asked.filterMap NativeCall.deltaNanos).map fun d ↦ .tell (.tick (deltaSeconds o d)) := by
  induction asked with
  | nil => rfl
  | cons c asked ih =>
      rw [List.flatMap_cons, List.filter_append, ih]
      cases c <;> rfl

/-- The ticks that are sent are those that were asked for. -/
theorem filter_isTick_attempted (h : attempted o ui w = some (ui', ops)) :
    ∃ ds, ui'.ticks = ui.ticks ++ ds ∧
      ops.filter NativeOp.isTick = ds.map fun d ↦ .tell (.tick (deltaSeconds o d)) := by
  induction w generalizing ui ops with
  | nil =>
      obtain ⟨rfl, rfl⟩ := Prod.mk.inj (Option.some.inj h)
      exact ⟨[], (List.append_nil _).symm, rfl⟩
  | cons e w ih =>
      obtain ⟨⟨ui₁, ops₁⟩, h₁, h⟩ := Option.bind_eq_some_iff.mp h
      obtain ⟨⟨ui₂, ops₂⟩, h₂, h⟩ := Option.map_eq_some_iff.mp h
      obtain ⟨rfl, rfl⟩ := Prod.mk.inj h
      obtain ⟨ds, hds, hops⟩ := ih h₂
      have hfirst : ∃ ds₁, ui₁.ticks = ui.ticks ++ ds₁ ∧
          ops₁.filter NativeOp.isTick = ds₁.map fun d ↦ .tell (.tick (deltaSeconds o d)) := by
        cases e with
        | activity e =>
            obtain ⟨ui', hnext, hx⟩ := Option.map_eq_some_iff.mp h₁
            obtain ⟨rfl, rfl⟩ := Prod.mk.inj hx
            obtain ⟨asked, hasked⟩ := EntryPoint.native_extends hnext
            refine ⟨_, ?_, filter_isTick_asked o _⟩
            rw [EntryPoint.ticks, ← hasked, List.filterMap_append, List.drop_left]
            rfl
        | compose e =>
            rw [asks, Option.ite_none_right_eq_some] at h₁
            obtain ⟨rfl, rfl⟩ := Prod.mk.inj (Option.some.inj h₁.2)
            refine ⟨[], (List.append_nil _).symm, List.filter_eq_nil_iff.mpr fun op hop ↦ ?_⟩
            rw [(ops_of_compose e op hop).2]
            exact Bool.false_ne_true
        | background =>
            obtain ⟨rfl, rfl⟩ := Prod.mk.inj (Option.some.inj h₁)
            exact ⟨[], (List.append_nil _).symm, rfl⟩
      obtain ⟨ds₁, hds₁, hops₁⟩ := hfirst
      refine ⟨ds₁ ++ ds, ?_, ?_⟩
      · rw [hds, hds₁, List.append_assoc]
      · rw [List.filter_append, hops₁, hops, List.map_append]

/-- Up to the first frame the native side is told of no time. -/
theorem timeless_of_attempted {native : N} {s : Shell N F} {bound : NativeMethod → Bool}
    {side : NativeSide N F} (hzero : o.le (o.ofInt 0) (o.ofInt 0) = true)
    (h : (system o bound side native).Run (initial o native) w s) (hframe : s.ui.ticks.length ≤ 1)
    (hops : attempted o .initial w = some (s.ui, ops)) (q : Request F) (hq : .tell q ∈ ops) :
    Installed.Timeless o q := by
  have hfirst : s.ui.FirstFrame := ui_invariant EntryPoint.FirstFrame.next h
    EntryPoint.firstFrame_initial
  obtain ⟨ds, hds, htick⟩ := filter_isTick_attempted hops
  obtain rfl : s.ui.ticks = ds := hds
  cases q with
  | tick dt =>
      have hmem : .tell (.tick dt) ∈ ops.filter NativeOp.isTick :=
        List.mem_filter.mpr ⟨hq, rfl⟩
      rw [htick] at hmem
      obtain ⟨d, hd, heq⟩ := List.mem_map.mp hmem
      -- there is one tick, and it is the first
      obtain ⟨d', hd'⟩ := List.length_eq_one_iff.mp
        (Nat.le_antisymm hframe (List.length_pos_of_mem hd))
      rw [hd'] at hd
      obtain rfl := List.mem_singleton.mp hd
      obtain rfl : d = 0 := hfirst.first d (by rw [hd']; rfl)
      cases heq
      exact hzero
  | dispatchLifecycle | touchDown | touchMove | touchUp | windowResized | windowFocusChanged
  | keyEvent => trivial

section

variable {found : FileSystem String} {saved : Option (AppRegistry F)}
  {s : Shell (Installed F) F} {codec : Codec F} {path : String}

theorem inSession_of_run (hstored : Stored o codec path found saved)
    (h : (system o allBound (Installed.side o codec path) ⟨found, .fresh⟩).Run
      (initial o ⟨found, .fresh⟩) w s) :
    Installed.InSession o codec path found saved s.native := by
  obtain ⟨ops, -, hd⟩ := degraded_of_run h
  obtain ⟨v, hv, -⟩ := hd.native
  exact Installed.inSession_of_run hstored hv ⟨rfl, nofun, nofun⟩

/-- The first frame shows the follower where it was saved. -/
theorem display_of_first_frame (hzero : o.le (o.ofInt 0) (o.ofInt 0) = true)
    (hstored : Stored o codec path found saved)
    (h : (system o allBound (Installed.side o codec path) ⟨found, .fresh⟩).Run
      (initial o ⟨found, .fresh⟩) w s) (hframe : s.ui.ticks.length = 1) :
    s.display.followerXDisplay = (savedPosition o saved).x ∧
      s.display.followerYDisplay = (savedPosition o saved).y := by
  obtain ⟨ops, hops, hm⟩ := mirrors_of_run (run_map (Installed.refines_native o codec path) h)
  obtain ⟨ops', hops', hd⟩ := degraded_of_run h
  obtain rfl : ops = ops' := congrArg Prod.snd (Option.some.inj (hops.symm.trans hops'))
  obtain ⟨v, hv, htold⟩ := hd.native
  have htimeless (q : Request F) (hq : some q ∈ v) : Installed.Timeless o q := by
    refine timeless_of_attempted hzero h (Nat.le_of_eq hframe) hops q ?_
    have hmem : q ∈ v.filterMap id := List.mem_filterMap.mpr ⟨some q, hq, rfl⟩
    rw [htold] at hmem
    obtain ⟨op, hop, heq⟩ := List.mem_filterMap.mp hmem
    cases op with
    | ask => cases heq
    | tell q' =>
        obtain rfl := Option.some.inj heq
        exact hop
  have hheld : Installed.Held o saved s.native :=
    Installed.held_of_run hstored hv htimeless ⟨rfl, nofun, nofun⟩ nofun
  have hpos : 0 < ops.countP NativeOp.isTick := by
    obtain ⟨ds, hds, htick⟩ := filter_isTick_attempted hops
    obtain rfl : s.ui.ticks = ds := hds
    rw [List.countP_eq_length_filter, htick, List.length_map, hframe]
    exact Nat.one_pos
  have hposition : s.native.native.followerPosition o = savedPosition o saved := by
    refine hheld ?_
    have hstarted := hm.ready.started
    rw [hm.framed hpos] at hstarted
    exact hstarted
  have hx : s.display.followerXDisplay = (s.native.native.followerPosition o).x :=
    hm.follower .followerX (.inl rfl) hpos
  have hy : s.display.followerYDisplay = (s.native.native.followerPosition o).y :=
    hm.follower .followerY (.inr rfl) hpos
  exact ⟨hx.trans (congrArg Vec3.x hposition), hy.trans (congrArg Vec3.y hposition)⟩

end

end Shell

/-! ## The phone -/

/-- The process that runs, with Kotlin in front of the native side. -/
structure Phone (F : Type) where
  shell : Shell (Installed F) F
  /-- The registry of the last snapshot renamed into place by an earlier process. -/
  origin : Option (AppRegistry F)

namespace Phone

/-- A process that finds these files, before any Activity. -/
def launched (o : FloatOps F) (found : FileSystem String) (origin : Option (AppRegistry F)) :
    Phone F := ⟨.initial o ⟨found, .fresh⟩, origin⟩

/-- What happens to a phone. -/
inductive Event (F : Type)
  | process (e : Shell.Event F)
  | relaunch

/-- A step of the process, or the next process.  A kill may come in the middle of a call:
the threads of the process have gone on by then, in whatever way. -/
inductive Step (o : FloatOps F) (codec : Codec F) (path : String) :
    Phone F → Event F → Phone F → Prop
  | process (p : Phone F) (e : Shell.Event F) (shell : Shell (Installed F) F)
      (h : Shell.Step o Shell.allBound (Installed.side o codec path) p.shell e shell) :
      Step o codec path p (.process e) { p with shell }
  | killed (p : Phone F) (s : TouchedApp F) (w : List Action) (app : KonativeAndroidApp F)
      (hs : p.shell.native.native.app = some s)
      (h : (KonativeAndroidApp.system o codec path).Run s.app w app) :
      Step o codec path p .relaunch (launched o app.fs (app.latest.or p.origin))
  | killedUnstarted (p : Phone F) (hs : p.shell.native.native.app = none) :
      Step o codec path p .relaunch (launched o p.shell.native.found p.origin)

/-- A phone, from the first launch: there is no state file. -/
def system (o : FloatOps F) (codec : Codec F) (path : String) : Lts (Phone F) (Event F) where
  init p := ∃ found, found.content path = none ∧ p = launched o found none
  step := Step o codec path

variable {p p' : Phone F} {e : Event F}

/-- The process runs on what was stored before it. -/
def Resumed (o : FloatOps F) (codec : Codec F) (path : String) (p : Phone F) : Prop :=
  ∃ found w, Stored o codec path found p.origin ∧
    (Shell.system o Shell.allBound (Installed.side o codec path) ⟨found, .fresh⟩).Run
      (.initial o ⟨found, .fresh⟩) w p.shell

theorem resumed_launched {found : FileSystem String} {origin : Option (AppRegistry F)}
    (h : Stored o codec path found origin) : Resumed o codec path (launched o found origin) :=
  ⟨found, [], h, .nil _⟩

theorem Step.resumed (h : Step o codec path p e p') (hp : Resumed o codec path p) :
    Resumed o codec path p' := by
  obtain ⟨found, w, hstored, hrun⟩ := hp
  have hn := Shell.inSession_of_run hstored hrun
  cases h with
  | process e shell h => exact ⟨found, w ++ [e], hstored, hrun.snoc h⟩
  | killed s w app hs h =>
      obtain ⟨q, hq, rfl, horigin⟩ := hn.run hs h
      refine resumed_launched (.inr ⟨q, hq, rfl, ?_⟩)
      rw [Session.durable, horigin]
  | killedUnstarted hs =>
      rw [hn.found]
      exact resumed_launched hstored

theorem resumed_of_reachable (h : (system o codec path).Reachable p) :
    Resumed o codec path p := by
  refine h.invariant (fun {p} hinit ↦ ?_) Step.resumed
  obtain ⟨found, hnone, rfl⟩ := hinit
  exact resumed_launched (.inl ⟨rfl, hnone⟩)

/-- However many processes there were before, whenever each was killed and whatever its
writer threads had done by then: the process finds the snapshot that was last renamed into
place, if one ever was, and from its first frame to its second the dot is on display where
the follower is in that snapshot, whatever is touched meanwhile. -/
theorem resumes (o : FloatOps F) (codec : Codec F) (path : String)
    (hzero : o.le (o.ofInt 0) (o.ofInt 0) = true) (p : Phone F)
    (h : (system o codec path).Reachable p) :
    p.shell.native.found.content path = p.origin.map (stateImage codec) ∧
      (p.shell.ui.ticks.length = 1 →
        p.shell.display.followerXDisplay = (savedPosition o p.origin).x ∧
        p.shell.display.followerYDisplay = (savedPosition o p.origin).y) := by
  obtain ⟨found, w, hstored, hrun⟩ := resumed_of_reachable h
  refine ⟨?_, Shell.display_of_first_frame hzero hstored hrun⟩
  rw [(Shell.inSession_of_run hstored hrun).found]
  exact hstored.content.1

/-! ### A phone with a snapshot -/

/-- STARTED, where `on_started` completes. -/
theorem receives_started {found : FileSystem String} {l : Launch} {app : KonativeAndroidApp F}
    (hdir : l.hasConfigDirectory = true) (hstart : onStarted o codec path l found = some app) :
    (Installed.side o codec path).receive
      (.dispatchLifecycle AndroidLifecycleEvent.started.code) ⟨found, .fresh⟩
      ⟨found, ⟨some ⟨app, 0⟩, false⟩⟩ := by
  refine ⟨.started _ _ _ _ _ rfl hstart, rfl, fun s _ hs ↦ ⟨l, fun _ ↦ hdir, ?_⟩⟩
  obtain rfl := Option.some.inj hs
  exact hstart

/-- A launch and a frame. -/
def firstFrame : List (Shell.Event F) :=
  [.activity (.callback 0 .created), .activity (.callback 0 .started),
    .activity (.callback 0 .resumed), .activity (.vsync 16)]

theorem exists_first_frame {found : FileSystem String} {app : KonativeAndroidApp F}
    (hstart : onStarted o codec path ⟨true, ⟨120, 300⟩, [], true⟩ found = some app) :
    ∃ s, (Shell.system o Shell.allBound (Installed.side o codec path) ⟨found, .fresh⟩).Run
      (.initial o ⟨found, .fresh⟩) firstFrame s ∧ s.ui.ticks.length = 1 := by
  obtain ⟨-, e, b, happ⟩ := onStarted_eq_some hstart
  have htick : app.Ticks o codec path (o.ofInt 0)
      { app.beginTick o (o.ofInt 0) none with pc := .idle } := by
    rw [happ]
    exact ticks_of_quiet rfl rfl rfl
  have hresumed : (Installed.side o codec path).receive
      (.dispatchLifecycle AndroidLifecycleEvent.resumed.code)
      ⟨found, ⟨some ⟨app, 0⟩, false⟩⟩ ⟨found, ⟨some ⟨app, 0⟩, false⟩⟩ :=
    ⟨.lifecycle _ _ (by decide), rfl, nofun⟩
  have hticked : (Installed.side o codec path).receive (.tick (o.ofInt 0))
      ⟨found, ⟨some ⟨app, 0⟩, false⟩⟩ ⟨found, ⟨some ⟨_, 0⟩, false⟩⟩ :=
    ⟨.tick _ _ _ _ htick, rfl, nofun⟩
  have hrun : (Shell.system o Shell.allBound (Installed.side o codec path) ⟨found, .fresh⟩).Run
      (.initial o ⟨found, .fresh⟩) firstFrame _ :=
    .cons (.activity _ _ _ _ [.start] rfl rfl <| .single (.told _ _ _ rfl <|
      receives_started rfl hstart)) <|
    .cons (.activity _ _ _ _ [] rfl rfl (.nil _)) <|
    .cons (.activity _ _ _ _ [.resume] rfl rfl <| .single (.told _ _ _ rfl hresumed)) <|
    .single (.activity _ _ _ _ [.tick 0] rfl rfl <|
      .cons (.told _ _ _ rfl hticked) <| .cons (.asked _ .tickCount rfl) <|
      .cons (.asked _ .followerX rfl) <| .single (.asked _ .followerY rfl))
  exact ⟨_, hrun, rfl⟩

/-- What the process does is what the phone does. -/
theorem run_process {w : List (Shell.Event F)} {s : Shell (Installed F) F} {n₀ : Installed F}
    (h : (Shell.system o Shell.allBound (Installed.side o codec path) n₀).Run p.shell w s) :
    (system o codec path).Run p (w.map .process) { p with shell := s } := by
  generalize hx : p.shell = shell at h
  induction h generalizing p with
  | nil _ => exact hx ▸ .nil p
  | cons hs _ ih =>
      subst hx
      exact .cons (Step.process p _ _ hs) (ih (p := { p with shell := _ }) rfl)

/-- The process after one that saved a snapshot, at its first frame. -/
theorem resumes_saved : ∃ (p : Phone UInt32) (r : AppRegistry UInt32),
    (system .whole Codec.u32 "state.bin").Reachable p ∧ p.origin = some r ∧
      p.shell.display.followerXDisplay = (savedPosition .whole (some r)).x ∧
      p.shell.display.followerYDisplay = (savedPosition .whole (some r)).y := by
  obtain ⟨app, app', w, i, writer, hstart, hrun, hwriter, hpc⟩ := Session.exists_saved
  have hsession : (Session.system .whole Codec.u32 "state.bin").Reachable
      ⟨app, none, app.registry⟩ := .of_init ⟨_, _, app, rfl, hstart, rfl⟩
  have hinv := (Session.inv_of_reachable (hsession.run (Session.run_app hrun))).app
  obtain ⟨r, hr⟩ := Option.isSome_iff_exists.mp (Session.latest_isSome hinv hwriter (by rw [hpc]; rfl)).2
  let first : Phone UInt32 := launched .whole .empty none
  have hlaunch : (system .whole Codec.u32 "state.bin").Reachable first :=
    .of_init ⟨.empty, rfl, rfl⟩
  have hcreated : Shell.Step .whole Shell.allBound (Installed.side .whole Codec.u32 "state.bin")
      first.shell (.activity (.callback 0 .created)) _ :=
    .activity _ _ _ _ [.start] rfl rfl <| .single <| .told _ _ _ rfl <|
      receives_started rfl hstart
  have hkilled := (hlaunch.step (Step.process _ _ _ hcreated)).step
    (Step.killed _ ⟨app, 0⟩ w app' rfl hrun)
  rw [hr, Option.some_or] at hkilled
  -- the next process finds the snapshot
  obtain ⟨hcontent, -⟩ := resumes .whole Codec.u32 "state.bin" rfl _ hkilled
  obtain ⟨found', w', hstored, hrun'⟩ := resumed_of_reachable hkilled
  obtain ⟨counters, e, transform, follow, hpop⟩ := hstored.content.2 r rfl
  obtain ⟨app'', hstart', -⟩ :=
    onStarted_of_snapshot .whole ⟨true, ⟨120, 300⟩, [], true⟩ hpop rfl hcontent
  obtain ⟨s, hs, hframe⟩ := exists_first_frame hstart'
  have hreach := hkilled.run (run_process (p := launched .whole app'.fs (some r)) hs)
  obtain ⟨-, hdisplay⟩ := resumes .whole Codec.u32 "state.bin" rfl _ hreach
  exact ⟨_, r, hreach, rfl, hdisplay hframe⟩

end Phone

end Konative.Android
