import Konative.App.OnStarted
import Konative.App.SnapshotEvents

/-!
# Sessions

The application across any number of processes.  A session is a process from the end
of its `on_started`; it steps as `KonativeAndroidApp.Step` says, it can be killed
between any two steps, and the next session starts on the file system it left.  A
kill in the middle of `on_started` is a session that is killed before its first tick.

Nothing but the application touches the state file and its temporary files, and a
state file that exists can be opened, which includes that its directory is found.

The invariant says that the state file is the snapshot of a population, or absent,
and ties the registry to it: the counters are those the session started with plus its
ticks, and a session starts with the population of the last snapshot that was renamed
into place.
-/

namespace Konative.App

open Ecs Entt FileSystem KonativeAndroidApp

variable {F : Type}

/-- A process and where it came from. -/
structure Session (F : Type) where
  app : KonativeAndroidApp F
  /-- The registry of the last snapshot renamed into place in an earlier session. -/
  origin : Option (AppRegistry F)
  /-- The registry when `on_started` returned. -/
  started : AppRegistry F

namespace Session

/-- The registry of the last snapshot renamed into place, in this session or before. -/
def durable (s : Session F) : Option (AppRegistry F) := s.app.latest.or s.origin

/-- What happens across sessions. -/
inductive Event
  | app (a : Action)
  | relaunch
deriving DecidableEq

/-- A step of the process, or a kill and the next start. -/
inductive Step (o : FloatOps F) (codec : Codec F) (path : String) :
    Session F → Event → Session F → Prop
  | app (s : Session F) (a : Action) (app' : KonativeAndroidApp F)
      (hstep : KonativeAndroidApp.Step o codec path s.app a app') :
      Step o codec path s (.app a) { s with app := app' }
  | relaunch (s : Session F) (l : Launch) (app' : KonativeAndroidApp F)
      (hopen : s.app.fs.content path ≠ none → l.hasConfigDirectory = true)
      (hstart : onStarted o codec path l s.app.fs = some app') :
      Step o codec path s .relaunch ⟨app', s.durable, app'.registry⟩

/-- All sessions, from a first one that finds no state file. -/
def system (o : FloatOps F) (codec : Codec F) (path : String) : Lts (Session F) Event where
  init s := ∃ fs l app, fs.content path = none ∧ onStarted o codec path l fs = some app ∧
    s = ⟨app, none, app.registry⟩
  step := Step o codec path

variable {o : FloatOps F} {codec : Codec F} {path : String} {s s' : Session F} {e : Event}

/-! ## What a step does to the registry -/

/-- A step of the process runs the systems once, aims the follower, or leaves the
registry alone. -/
theorem registry_cases {s s' : KonativeAndroidApp F} {a : Action}
    (h : KonativeAndroidApp.Step o codec path s a s') :
    (s'.registry = s.registry ∧ s'.ticks = s.ticks) ∨
      (∃ dt, s'.registry = runSystems o dt s.registry ∧ s'.ticks = s.ticks + 1) ∨
      ∃ e target, s'.registry = setTarget e target s.registry ∧ s'.ticks = s.ticks := by
  have haimed : ∀ target, s.aimed target = s.registry ∨
      ∃ e, s.aimed target = setTarget e target s.registry := by
    intro target
    unfold aimed
    cases s.followerEntity with
    | none => exact .inl rfl
    | some e => exact .inr ⟨e, rfl⟩
  cases h with
  | tick dt reload hpc => exact .inr (.inl ⟨dt, rfl, rfl⟩)
  | touch x y hpc =>
      rcases haimed ⟨x, y, o.ofInt 0⟩ with he | ⟨e, he⟩
      · exact .inl ⟨he, rfl⟩
      · exact .inr (.inr ⟨e, _, he, rfl⟩)
  | windowResized width height hpc =>
      by_cases ht : s.followerHasUserTarget = true
      · exact .inl ⟨if_pos ht, rfl⟩
      · rcases haimed _ with he | ⟨e, he⟩
        · exact .inl ⟨(if_neg ht).trans he, rfl⟩
        · exact .inr (.inr ⟨e, _, (if_neg ht).trans he, rfl⟩)
  | skip _ _ | exchange _ _ _ | spawn _ | tryDequeue _ | dequeued _ _ _ _ _ _ | drained _
  | write _ _ _ _ _ _ _ _ _ | written _ _ _ _ _ | clear _ _ _ _ _ | post _ _ _ _ _ | elsewhere =>
      exact .inl ⟨rfl, rfl⟩

/-! ## The invariant -/

/-- The registry is that of a population. -/
def IsPopulated (r : AppRegistry F) : Prop :=
  ∃ counters e transform follow, Populated r counters e transform follow

/-- The counters after `n` ticks. -/
def countersAfter (n : Nat) (counters : Pool HeartbeatCounter) : Pool HeartbeatCounter :=
  counters.patch fun _ h ↦ h.advance (UInt64.ofNat n)

theorem countersAfter_zero (counters : Pool HeartbeatCounter) :
    countersAfter 0 counters = counters := by
  have h : (fun (_ : Entity) (h : HeartbeatCounter) ↦ h.advance (UInt64.ofNat 0)) =
      fun _ h ↦ h := by
    funext _ h
    exact HeartbeatCounter.ext (UInt64.add_zero h.ticks)
  rw [countersAfter, h, Pool.patch_id]

theorem countersAfter_succ (n : Nat) (counters : Pool HeartbeatCounter) :
    countersAfter (n + 1) counters = (countersAfter n counters).patch fun _ h ↦ h.advance 1 := by
  rw [countersAfter, countersAfter, Pool.patch_patch]
  congr 1
  funext _ h
  refine HeartbeatCounter.ext ?_
  show h.ticks + UInt64.ofNat (n + 1) = h.ticks + UInt64.ofNat n + 1
  rw [UInt64.ofNat_add, UInt64.add_assoc]
  rfl

/-- The population of a session: what it started with, and what became of it. -/
structure Population (s : Session F) (counters : Pool HeartbeatCounter) (e : Entity)
    (transform : Transform F) (follow : PointerFollow F) : Prop where
  started : Populated s.started counters e transform follow
  now : ∃ transform' follow',
    Populated s.app.registry (countersAfter s.app.ticks counters) e transform' follow'
  origin : ∀ {r}, s.origin = some r → Populated r counters e transform follow
  new : s.origin = none → ∀ x ∈ counters, x.2 = .default

/-- What holds of a session at every time. -/
structure Inv (codec : Codec F) (path : String) (s : Session F) : Prop where
  app : KonativeAndroidApp.Inv codec path (s.origin.map (stateImage codec)) s.app
  population : ∃ counters e transform follow, Population s counters e transform follow
  captured : ∀ {i w}, s.app.writers i = some w → IsPopulated w.captured

namespace Inv

/-- The registry now is that of a population. -/
theorem isPopulated (hs : Inv codec path s) : IsPopulated s.app.registry := by
  obtain ⟨counters, e, _, _, hpop⟩ := hs.population
  obtain ⟨transform', follow', hnow⟩ := hpop.now
  exact ⟨_, e, transform', follow', hnow⟩

/-- So is the one of the last snapshot. -/
theorem isPopulated_durable (hs : Inv codec path s) {r : AppRegistry F}
    (h : s.durable = some r) : IsPopulated r := by
  rcases Option.or_eq_some_iff.mp h with h | ⟨-, h⟩
  · obtain ⟨i, -, hi⟩ := Option.bind_eq_some_iff.mp h
    obtain ⟨w, hw, rfl⟩ := Option.map_eq_some_iff.mp hi
    exact hs.captured hw
  · obtain ⟨counters, e, transform, follow, hpop⟩ := hs.population
    exact ⟨counters, e, transform, follow, hpop.origin h⟩

/-- The state file is the last snapshot, or there is none. -/
theorem content (hs : Inv codec path s) :
    s.app.fs.content path = s.durable.map (stateImage codec) := by
  rw [hs.app.durable.content, durable, Option.map_or]

/-- However this session ends, `on_started` completes in the next one. -/
theorem exists_onStarted (hs : Inv codec path s) (o : FloatOps F) {l : Launch}
    (hopen : s.app.fs.content path ≠ none → l.hasConfigDirectory = true) :
    ∃ app', onStarted o codec path l s.app.fs = some app' := by
  have hcontent := hs.content
  cases hd : s.durable with
  | none =>
      rw [hd] at hcontent
      obtain ⟨app', -, -, happ, -⟩ := onStarted_of_none o codec l hcontent
      exact ⟨app', happ⟩
  | some r =>
      rw [hd] at hcontent
      obtain ⟨_, _, _, _, hr⟩ := hs.isPopulated_durable hd
      have hdir := hopen (by rw [hcontent]; exact Option.some_ne_none _)
      obtain ⟨app', happ, -⟩ := onStarted_of_snapshot o l hr hdir hcontent
      exact ⟨app', happ⟩

end Inv

/-- A session that has just started, on a state file with the snapshot of `origin`. -/
theorem inv_started {fs : FileSystem String} {l : Launch} {app : KonativeAndroidApp F}
    {origin : Option (AppRegistry F)} (hpop : ∀ {r}, origin = some r → IsPopulated r)
    (hcontent : fs.content path = origin.map (stateImage codec))
    (hopen : fs.content path ≠ none → l.hasConfigDirectory = true)
    (hstart : onStarted o codec path l fs = some app) :
    Inv codec path ⟨app, origin, app.registry⟩ := by
  obtain ⟨hsame, e₀, b, happ⟩ := onStarted_eq_some hstart
  have hticks : app.ticks = 0 := by rw [happ]; rfl
  have hwriters : ∀ i, app.writers i = none := by rw [happ]; exact fun _ ↦ rfl
  refine ⟨?_, ?_, fun hi ↦ ?_⟩
  · have hfresh : KonativeAndroidApp.Inv codec path (app.fs.content path)
        (fresh app.fs app.registry l.config.clampToValid l.hasConfigDirectory (some e₀) b) :=
      inv_fresh ..
    rw [← happ, hsame, hcontent] at hfresh
    exact hfresh
  · cases origin with
    | none =>
        obtain ⟨s, counters, e, hs, hp, hnew⟩ := onStarted_of_none o codec l hcontent
        obtain rfl := Option.some.inj (hs.symm.trans hstart)
        refine ⟨counters, e, _, _, hp, ⟨.default o, .default o, ?_⟩, nofun, fun _ ↦ hnew⟩
        show Populated s.registry (countersAfter s.ticks counters) e _ _
        rw [hticks, countersAfter_zero]
        exact hp
    | some r =>
        obtain ⟨counters, e, transform, follow, hr⟩ := hpop rfl
        have hdir := hopen (by rw [hcontent]; exact Option.some_ne_none _)
        obtain ⟨s, hs, hp⟩ := onStarted_of_snapshot o l hr hdir hcontent
        obtain rfl := Option.some.inj (hs.symm.trans hstart)
        refine ⟨counters, e, transform, follow, hp, ⟨transform, follow, ?_⟩, ?_, nofun⟩
        · show Populated s.registry (countersAfter s.ticks counters) e _ _
          rw [hticks, countersAfter_zero]
          exact hp
        · rintro _ ⟨⟩
          exact hr
  · change app.writers _ = some _ at hi
    rw [hwriters] at hi
    cases hi

theorem Step.inv (h : Step o codec path s e s') (hs : Inv codec path s) : Inv codec path s' := by
  cases h with
  | app a app' hstep =>
      refine ⟨hstep.inv hs.app, ?_, fun {i w} hi ↦ ?_⟩
      · obtain ⟨counters, e, transform, follow, hpop⟩ := hs.population
        obtain ⟨transform', follow', hnow⟩ := hpop.now
        refine ⟨counters, e, transform, follow, hpop.started, ?_, hpop.origin, hpop.new⟩
        show ∃ t f, Populated app'.registry (countersAfter app'.ticks counters) e t f
        rcases registry_cases hstep with ⟨hr, ht⟩ | ⟨dt, hr, ht⟩ | ⟨e', target, hr, ht⟩
        · rw [hr, ht]
          exact ⟨transform', follow', hnow⟩
        · rw [hr, ht, countersAfter_succ]
          exact ⟨_, follow', hnow.runSystems o dt⟩
        · rw [hr, ht]
          exact ⟨transform', hnow.setTarget e' target⟩
      · -- a snapshot is taken of the registry as it is
        rcases hstep.writer_back hi with ⟨v, hv, he⟩ | ⟨-, -, -, hc, -⟩
        · have hp := hs.captured hv
          rw [he]
          exact hp
        · rw [hc]
          exact hs.isPopulated
  | relaunch l app' hopen hstart =>
      exact inv_started hs.isPopulated_durable hs.content hopen hstart

theorem inv_of_reachable (h : (system o codec path).Reachable s) : Inv codec path s := by
  refine h.invariant (fun {s} hinit ↦ ?_) Step.inv
  obtain ⟨fs, l, app, hnone, hstart, rfl⟩ := hinit
  exact inv_started nofun hnone (fun hne ↦ absurd hnone hne) hstart

/-! ## Durable population and counts -/

/-- In every session, from the end of its `on_started` on: exactly three entities have
a `HeartbeatCounter`, exactly one has a `Transform` and a `PointerFollow`, and there is
no other entity; after `t` ticks a counter is `t` more than what the same entity had in
the last snapshot renamed into place in an earlier session, or `t` if there is none;
the session started with the follower's `Transform` and `PointerFollow` of that
snapshot; and the next session, whenever this one is killed, can start. -/
theorem durable_population (o : FloatOps F) (codec : Codec F) (path : String) (s : Session F)
    (h : (system o codec path).Reachable s) :
    let r := s.app.registry
    (r.live.filter fun e ↦ r.Has .heartbeatCounter e).length = heartbeatEntityCount ∧
      (r.live.filter fun e ↦ r.Has .transform e ∧ r.Has .pointerFollow e).length = 1 ∧
      (∀ e, r.Valid e → r.Has .heartbeatCounter e ∨ (r.Has .transform e ∧ r.Has .pointerFollow e)) ∧
      (∀ e counter, (r.pool .heartbeatCounter).get? e = some counter →
        match s.origin with
        | none => counter.ticks = UInt64.ofNat s.app.ticks
        | some r₀ => ∃ base, (r₀.pool .heartbeatCounter).get? e = some base ∧
            counter.ticks = base.ticks + UInt64.ofNat s.app.ticks) ∧
      (∀ r₀, s.origin = some r₀ → ∀ e,
        (s.started.pool .transform).get? e = (r₀.pool .transform).get? e ∧
          (s.started.pool .pointerFollow).get? e = (r₀.pool .pointerFollow).get? e) ∧
      ∀ l : Launch, (s.app.fs.content path ≠ none → l.hasConfigDirectory = true) →
        ∃ app', onStarted o codec path l s.app.fs = some app' := by
  have hs := inv_of_reachable h
  obtain ⟨counters, follower, transform, follow, hpop⟩ := hs.population
  obtain ⟨transform', follow', hnow⟩ := hpop.now
  refine ⟨hnow.length_heartbeats, by rw [hnow.followers_eq]; rfl,
    fun e ↦ hnow.heartbeat_or_follower, fun e counter hc ↦ ?_, fun r₀ hr₀ e ↦ ?_,
    fun l ↦ hs.exists_onStarted o⟩
  · -- a counter now is a counter of the start, advanced
    rw [hnow.counters_eq, countersAfter, Pool.get?_patch] at hc
    obtain ⟨base, hbase, rfl⟩ := Option.map_eq_some_iff.mp hc
    cases ho : s.origin with
    | none =>
        have hmem := (Pool.get?_eq_some (hpop.started.counters_eq ▸ hpop.started.sound.keyed _)).mp
          hbase
        have hzero := hpop.new ho _ hmem
        change base = .default at hzero
        rw [hzero]
        exact UInt64.zero_add _
    | some r₀ =>
        refine ⟨base, ?_, rfl⟩
        rw [(hpop.origin ho).counters_eq]
        exact hbase
  · have hr := hpop.origin hr₀
    rw [hpop.started.transform_eq, hpop.started.follow_eq, hr.transform_eq, hr.follow_eq]
    exact ⟨rfl, rfl⟩

/-- What a process does is done in its session. -/
theorem run_app {app' : KonativeAndroidApp F} {word : List Action}
    (h : (KonativeAndroidApp.system o codec path).Run s.app word app') :
    (system o codec path).Run s (word.map .app) { s with app := app' } := by
  generalize hx : s.app = app at h
  induction h generalizing s with
  | nil _ => exact hx ▸ .nil s
  | cons hstep _ ih =>
      subst hx
      exact .cons (Step.app s _ _ hstep) (ih (s := { s with app := _ }) rfl)

/-- Once a writer has renamed its file there is a last snapshot. -/
theorem latest_isSome {app : KonativeAndroidApp F} {content₀ : Option Bytes} {i : Nat}
    {writer : Writer F} (happ : KonativeAndroidApp.Inv codec path content₀ app)
    (hwriter : app.writers i = some writer) (hpc : writer.pc.persisted = true) :
    i ∈ app.renamed ∧ app.latest.isSome = true := by
  have hi := (happ.durable.mem hwriter).mpr hpc
  have hhead := List.head?_eq_some_head (List.ne_nil_of_mem hi)
  obtain ⟨v, hv⟩ := happ.durable.exists_writer (List.mem_of_mem_head? hhead)
  refine ⟨hi, ?_⟩
  rw [latest, hhead, Option.bind_some, hv]
  rfl

/-- A first session that saves a snapshot in its sixtieth tick and is killed: the next
one starts from that snapshot. -/
private theorem exists_restored : ∃ s : Session UInt32,
    (system .whole Codec.u32 "state.bin").Reachable s ∧ s.origin.isSome := by
  have hnone : (FileSystem.empty : FileSystem String).content "state.bin" = none := rfl
  obtain ⟨app, -, -, hstart, -⟩ :=
    onStarted_of_none .whole Codec.u32 ⟨true, ⟨120, 60⟩, [], true⟩ hnone
  have hreach : (system .whole Codec.u32 "state.bin").Reachable ⟨app, none, app.registry⟩ :=
    .of_init ⟨_, _, app, hnone, hstart, rfl⟩
  obtain ⟨-, e, b, happ⟩ := onStarted_eq_some hstart
  have hquiet : Quiet app := by
    rw [happ]
    exact quiet_fresh ..
  obtain ⟨word, t, hr, ht, hcount, -⟩ := hquiet.exists_runs .whole Codec.u32 "state.bin" 59
  have hsixty : (t.tickCount + 1) % 60 = 0 := by
    rw [hcount, happ]
    show ((0 : UInt64) + UInt64.ofNat 59 + 1) % 60 = 0
    decide
  obtain ⟨word', u, w, hr', -, -, -, -, -, hw, hpc, -⟩ :=
    ht.exists_run_spawn .whole Codec.u32 "state.bin" hsixty
  obtain ⟨fs', labels, hwrite⟩ := exists_run_ok "state.bin" (w.call Codec.u32) u.fs
  obtain ⟨word'', app', hr'', hw'⟩ := exists_run_write .whole hwrite rfl hw hpc
  have hreach' := hreach.run
    (run_app (s := ⟨app, none, app.registry⟩) ((hr.append hr').append hr''))
  have hs := inv_of_reachable hreach'
  -- the writer has renamed, so the state file is a snapshot
  have hlatest : app'.latest.isSome := (latest_isSome hs.app hw' rfl).2
  obtain ⟨app'', hstart'⟩ := hs.exists_onStarted .whole (l := ⟨true, ⟨120, 60⟩, [], true⟩)
    fun _ ↦ rfl
  refine ⟨_, hreach'.step (Step.relaunch _ _ app'' (fun _ ↦ rfl) hstart'), ?_⟩
  rw [durable, Option.isSome_or, hlatest]
  rfl

/-- A restored session, with the counters of the snapshot it was restored from. -/
theorem durable_population_restored : ∃ (s : Session UInt32) (r₀ : AppRegistry UInt32),
    s.origin = some r₀ ∧
      (s.app.registry.live.filter fun e ↦ s.app.registry.Has .heartbeatCounter e).length = 3 ∧
      ∀ e counter, (s.app.registry.pool .heartbeatCounter).get? e = some counter →
        ∃ base, (r₀.pool .heartbeatCounter).get? e = some base ∧
          counter.ticks = base.ticks + UInt64.ofNat s.app.ticks := by
  obtain ⟨s, hs, horigin⟩ := exists_restored
  obtain ⟨r₀, hr₀⟩ := Option.isSome_iff_exists.mp horigin
  obtain ⟨hcount, -, -, hbase, -⟩ := durable_population .whole Codec.u32 "state.bin" s hs
  refine ⟨s, r₀, hr₀, hcount, fun e counter hc ↦ ?_⟩
  have h := hbase e counter hc
  rw [hr₀] at h
  exact h

end Session

end Konative.App
