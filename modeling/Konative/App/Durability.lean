import Konative.App.Session

/-!
# What was saved stays saved

`on_snapshot_saved` hears of every snapshot that a writer has renamed into place.  From
then on a process can be killed at any time, and so can the next one: the state file is
never gone again, and never older than that snapshot (`acknowledged_survives`).

How old a registry is shows in its counters: each advances by one a tick, and the next
process goes on from the last snapshot.  What is lost of a process is no more than its
ticks, and so a saved registry is no older than all the ticks there were, either.
-/

namespace Konative.App.Session

open Ecs Entt FileSystem KonativeAndroidApp

variable {F : Type} {o : FloatOps F} {codec : Codec F} {path : String} {s s' : Session F}
  {e : Event} {w : List Event}

/-! ## Ages -/

theorem countersAfter_add (m n : Nat) (counters : Pool HeartbeatCounter) :
    countersAfter n (countersAfter m counters) = countersAfter (m + n) counters := by
  induction n with
  | zero => exact countersAfter_zero _
  | succ n ih => rw [countersAfter_succ, ih, ← countersAfter_succ, Nat.add_assoc]

/-- The counters of a registry are these, so many ticks later. -/
def Aged (counters : Pool HeartbeatCounter) (n : Nat) (r : AppRegistry F) : Prop :=
  r.pool .heartbeatCounter = countersAfter n counters

theorem Aged.trans {counters : Pool HeartbeatCounter} {m n : Nat} {r r' : AppRegistry F}
    (h : Aged counters m r) (h' : Aged (r.pool .heartbeatCounter) n r') :
    Aged counters (m + n) r' := by
  rw [Aged, h', h, countersAfter_add]

theorem aged_self (r : AppRegistry F) : Aged (r.pool .heartbeatCounter) 0 r :=
  (countersAfter_zero _).symm

/-- A session is as old as its ticks, -/
theorem Inv.aged (hs : Inv codec path s) :
    Aged (s.started.pool .heartbeatCounter) s.app.ticks s.app.registry := by
  obtain ⟨counters, e, transform, follow, hpop⟩ := hs.population
  obtain ⟨transform', follow', hnow⟩ := hpop.now
  rw [Aged, hnow.counters_eq, hpop.started.counters_eq]

/-- and started as old as what it was restored from. -/
theorem Inv.aged_origin (hs : Inv codec path s) {r : AppRegistry F} (hr : s.origin = some r) :
    Aged (s.started.pool .heartbeatCounter) 0 r := by
  obtain ⟨counters, e, transform, follow, hpop⟩ := hs.population
  rw [Aged, (hpop.origin hr).counters_eq, hpop.started.counters_eq, countersAfter_zero]

/-- A snapshot is of the registry in the tick that spawned its writer. -/
def Captures (s : Session F) : Prop :=
  ∀ i writer, s.app.writers i = some writer →
    Aged (s.started.pool .heartbeatCounter) writer.atTick writer.captured

theorem captures_of_init (h : (system o codec path).init s) : Captures s := by
  obtain ⟨fs, l, app, -, hstart, rfl⟩ := h
  obtain ⟨-, e, b, happ⟩ := onStarted_eq_some hstart
  intro i writer hi
  change app.writers i = some writer at hi
  rw [happ] at hi
  cases hi

theorem Step.captures (h : Step o codec path s e s') (hs : Inv codec path s) (hc : Captures s) :
    Captures s' := by
  cases h with
  | app a app' hstep =>
      intro i writer hi
      rcases hstep.writer_back hi with ⟨v, hv, he⟩ | ⟨-, -, -, hcaptured, -, hat⟩
      · have hv := hc i v hv
        rw [he]
        exact hv
      · have hnow := hs.aged
        rw [← hcaptured, ← hat] at hnow
        exact hnow
  | relaunch l app' hopen hstart =>
      obtain ⟨-, e, b, happ⟩ := onStarted_eq_some hstart
      intro i writer hi
      change app'.writers i = some writer at hi
      rw [happ] at hi
      cases hi

theorem captures_of_reachable (h : (system o codec path).Reachable s) : Captures s := by
  have hboth : Inv codec path s ∧ Captures s := by
    refine h.invariant (I := fun s ↦ Inv codec path s ∧ Captures s) (fun {s} hinit ↦ ?_) ?_
    · exact ⟨inv_of_reachable (.of_init hinit), captures_of_init hinit⟩
    · rintro s e s' hstep ⟨hs, hc⟩
      exact ⟨hstep.inv hs, hstep.captures hs hc⟩
  exact hboth.2

/-! ## Never older -/

/-- A session at most `last` ticks after these counters, with a snapshot at least `first`
ticks after them. -/
structure Since (counters : Pool HeartbeatCounter) (first last : Nat) (s : Session F) : Prop where
  exists_base : ∃ base, Aged counters base s.started ∧ base + s.app.ticks ≤ last ∧
    ((∃ i writer, i ∈ s.app.renamed ∧ s.app.writers i = some writer ∧
        first ≤ base + writer.atTick) ∨
      (s.origin.isSome = true ∧ first ≤ base))

variable {counters : Pool HeartbeatCounter} {first last : Nat}

/-- The last one to rename was spawned last. -/
theorem le_atTick_of_head {app : KonativeAndroidApp F} {content₀ : Option Bytes} {i j : Nat}
    {writer v : Writer F} (happ : KonativeAndroidApp.Inv codec path content₀ app)
    (hhead : app.renamed.head? = some j) (hv : app.writers j = some v) (hi : i ∈ app.renamed)
    (hwriter : app.writers i = some writer) : writer.atTick ≤ v.atTick := by
  obtain ⟨rest, hrest⟩ := List.head?_eq_some_iff.mp hhead
  have hsorted := happ.durable.sorted
  rw [hrest] at hsorted hi
  rcases List.mem_cons.mp hi with rfl | hi
  · obtain rfl := Option.some.inj (hwriter.symm.trans hv)
    exact Nat.le_refl _
  · exact (happ.numbered.mono hwriter hv (List.rel_of_pairwise_cons hsorted hi)).le

/-- The last snapshot is in these bounds. -/
theorem Since.durable (h : Since counters first last s) (hs : Inv codec path s)
    (hc : Captures s) :
    ∃ r n, s.durable = some r ∧ Aged counters n r ∧ first ≤ n ∧ n ≤ last := by
  obtain ⟨base, hbase, hlast, hfirst⟩ := h.exists_base
  cases hhead : s.app.renamed.head? with
  | none =>
      have hnil := List.head?_eq_none_iff.mp hhead
      rcases hfirst with ⟨i, -, hi, -⟩ | ⟨horigin, hfirst⟩
      · rw [hnil] at hi
        cases hi
      obtain ⟨r, hr⟩ := Option.isSome_iff_exists.mp horigin
      refine ⟨r, base, ?_, hbase.trans (hs.aged_origin hr), hfirst, by omega⟩
      rw [Session.durable, latest, hhead, hr]
      rfl
  | some j =>
      have hj := List.mem_of_mem_head? hhead
      obtain ⟨v, hv⟩ := hs.app.durable.exists_writer hj
      refine ⟨v.captured, base + v.atTick, ?_, hbase.trans (hc j v hv), ?_, ?_⟩
      · rw [Session.durable, latest, hhead, Option.bind_some, hv]
        rfl
      · rcases hfirst with ⟨i, writer, hi, hwriter, hfirst⟩ | ⟨-, hfirst⟩
        · have hle := le_atTick_of_head hs.app hhead hv hi hwriter
          omega
        · omega
      · have hle := hs.app.numbered.le hv
        omega

/-- A tick is a tick. -/
theorem ticks_of_step {a : Action} {app app' : KonativeAndroidApp F}
    (h : KonativeAndroidApp.Step o codec path app a app') :
    app'.ticks = app.ticks + [Event.app a].count (.app .tick) := by
  cases h <;> rfl

theorem Since.step (h : Since counters first last s) (hstep : Step o codec path s e s')
    (hs : Inv codec path s) (hc : Captures s) :
    Since counters first (last + [e].count (.app .tick)) s' := by
  cases hstep with
  | app a app' hstep =>
      obtain ⟨base, hbase, hlast, hfirst⟩ := h.exists_base
      refine ⟨base, hbase, ?_, hfirst.imp_left ?_⟩
      · show base + app'.ticks ≤ _
        rw [ticks_of_step hstep]
        omega
      · rintro ⟨i, writer, hi, hwriter, hfirst⟩
        obtain ⟨v, hv, he, -⟩ := hstep.writer_forward (hs.app.exclusion.lt hwriter) hwriter
        refine ⟨i, v, hstep.renamed_suffix.subset hi, hv, ?_⟩
        rw [he]
        exact hfirst
  | relaunch l app' hopen hstart =>
      obtain ⟨r, n, hr, hn, hfirst, hlast⟩ := h.durable hs hc
      have hs' := Step.inv (.relaunch s l app' hopen hstart) hs
      obtain ⟨-, e, b, happ⟩ := onStarted_eq_some hstart
      refine ⟨n, ?_, ?_, .inr ⟨?_, hfirst⟩⟩
      · -- it starts with the counters of the snapshot
        have hsame : Aged (app'.registry.pool .heartbeatCounter) 0 r := hs'.aged_origin hr
        rw [Aged, countersAfter_zero] at hsame
        rw [Aged, ← hsame]
        exact hn
      · show n + app'.ticks ≤ last
        rw [happ]
        exact hlast
      · show s.durable.isSome = true
        rw [hr]
        rfl

theorem since_of_run (h : Since counters first last s) (hs : (system o codec path).Reachable s)
    (hrun : (system o codec path).Run s w s') :
    Since counters first (last + w.count (.app .tick)) s' := by
  refine hrun.history (P := fun w s' ↦ Since counters first (last + w.count (.app .tick)) s') h ?_
  intro w t e t' hr ih hstep
  have ht := hs.run hr
  rw [List.count_append, ← Nat.add_assoc]
  exact ih.step hstep (inv_of_reachable ht) (captures_of_reachable ht)

/-- An event that says so is of a snapshot that was renamed into place. -/
theorem renamed_of_saved (hs : Inv codec path s) {m : Posted} (hm : m ∈ s.app.saved)
    (hpersisted : m.event.persistedToDisk = true) :
    ∃ writer, s.app.writers m.writer = some writer ∧ m.writer ∈ s.app.renamed := by
  obtain ⟨writer, b, hwriter, hpc, hevent⟩ :=
    hs.app.ledger.posted m (List.mem_append_right _ hm)
  refine ⟨writer, hwriter, (hs.app.durable.mem hwriter).mpr ?_⟩
  rw [hevent] at hpersisted
  rw [hpc]
  exact hpersisted

/-- Once `on_snapshot_saved` has heard that a snapshot is on the disk, it stays there, or a
later one in its place: whatever happens next, in this process and after any number of
kills, the state file is the snapshot of a registry at least as many ticks after the start
of this session as the tick of that snapshot, and not more than there were ticks. -/
theorem acknowledged_survives (o : FloatOps F) (codec : Codec F) (path : String)
    (h : (system o codec path).Reachable s) {m : Posted} (hm : m ∈ s.app.saved)
    (hpersisted : m.event.persistedToDisk = true) (hrun : (system o codec path).Run s w s') :
    ∃ writer, s.app.writers m.writer = some writer ∧ ∃ r n, s'.durable = some r ∧
      s'.app.fs.content path = some (stateImage codec r) ∧
      writer.atTick ≤ n ∧ n ≤ s.app.ticks + w.count (.app .tick) ∧
      ∀ e, (r.pool .heartbeatCounter).get? e =
        ((s.started.pool .heartbeatCounter).get? e).map fun c ↦ c.advance (UInt64.ofNat n) := by
  have hs := inv_of_reachable h
  obtain ⟨writer, hwriter, hrenamed⟩ := renamed_of_saved hs hm hpersisted
  have hsince : Since (s.started.pool .heartbeatCounter) writer.atTick s.app.ticks s :=
    ⟨0, aged_self s.started, by omega,
      .inl ⟨m.writer, writer, hrenamed, hwriter, Nat.le_add_left ..⟩⟩
  have hs' := inv_of_reachable (h.run hrun)
  obtain ⟨r, n, hr, hn, hfirst, hlast⟩ :=
    (since_of_run hsince h hrun).durable hs' (captures_of_reachable (h.run hrun))
  refine ⟨writer, hwriter, r, n, hr, ?_, hfirst, hlast, fun e ↦ ?_⟩
  · rw [hs'.content, hr]
    rfl
  · rw [hn, countersAfter, Pool.get?_patch]

/-! ### A snapshot that is heard of -/

/-- A process that saves a snapshot in its sixtieth tick. -/
theorem exists_saved : ∃ (app app' : KonativeAndroidApp UInt32) (word : List Action) (i : Nat)
    (writer : Writer UInt32),
    onStarted .whole Codec.u32 "state.bin" ⟨true, ⟨120, 60⟩, [], true⟩ .empty = some app ∧
      (KonativeAndroidApp.system .whole Codec.u32 "state.bin").Run app word app' ∧
      app'.writers i = some writer ∧ writer.pc = .finished true := by
  have hnone : (FileSystem.empty : FileSystem String).content "state.bin" = none := rfl
  obtain ⟨app, -, -, hstart, -⟩ :=
    onStarted_of_none .whole Codec.u32 ⟨true, ⟨120, 60⟩, [], true⟩ hnone
  obtain ⟨-, e, b, happ⟩ := onStarted_eq_some hstart
  have hquiet : Quiet app := by
    rw [happ]
    exact quiet_fresh ..
  obtain ⟨word₁, t, h₁, ht, hcount, -⟩ := hquiet.exists_runs .whole Codec.u32 "state.bin" 59
  have hsixty : (t.tickCount + 1) % 60 = 0 := by
    rw [hcount, happ]
    show ((0 : UInt64) + UInt64.ofNat 59 + 1) % 60 = 0
    decide
  obtain ⟨word₂, u, writer, h₂, -, -, -, -, -, hwriter, hpc, -⟩ :=
    ht.exists_run_spawn .whole Codec.u32 "state.bin" hsixty
  obtain ⟨fs', labels, hwrite⟩ := exists_run_ok "state.bin" (writer.call Codec.u32) u.fs
  obtain ⟨word₃, v, h₃, hwritten⟩ := exists_run_write .whole hwrite rfl hwriter hpc
  have hself : ∀ {f : Nat → Option (Writer UInt32)} {pc : WriterPc},
      Function.update f t.spawned (some { writer with pc }) t.spawned =
        some { writer with pc } := Function.update_self ..
  exact ⟨app, _, _, t.spawned, _, hstart, ((h₁.append h₂).append h₃).append <|
    .cons (.written _ _ _ _ hwritten rfl) <| .cons (.clear _ _ _ true hself rfl) <|
    .single (.post _ _ _ true hself rfl), hself, rfl⟩

/-- `on_snapshot_saved` hears of it two ticks later, the process is killed, and the next one
finds it. -/
theorem acknowledged_survives_relaunch : ∃ (s s' : Session UInt32) (w : List Event) (m : Posted)
    (writer : Writer UInt32) (r : AppRegistry UInt32) (n : Nat),
    (system .whole Codec.u32 "state.bin").Run s w s' ∧ .relaunch ∈ w ∧ m ∈ s.app.saved ∧
      s.app.writers m.writer = some writer ∧ writer.atTick ≤ n ∧
      s'.app.fs.content "state.bin" = some (stateImage Codec.u32 r) := by
  obtain ⟨app, app', word, i, writer, hstart, hrun, hwriter, hpc⟩ := exists_saved
  have hfinished : writer.pc.Finished := by rw [hpc]; trivial
  have hreach : (system .whole Codec.u32 "state.bin").Reachable ⟨app, none, app.registry⟩ :=
    .of_init ⟨_, _, app, rfl, hstart, rfl⟩
  have hreach' := hreach.run (run_app (s := ⟨app, none, app.registry⟩) hrun)
  have hs' := (inv_of_reachable hreach').app
  obtain ⟨word', app'', hticks, hcount⟩ := exists_run_ticks .whole hs' 2
  have hsaved := saved_of_run hticks hs' hwriter hfinished (Nat.le_of_eq hcount.symm)
  rw [decide_eq_true (latest_isSome hs' hwriter (by rw [hpc]; rfl)).1] at hsaved
  have hm : ⟨i, (writer.bytes Codec.u32).length, true⟩ ∈ app''.saved :=
    List.mem_of_mem_filter (hsaved ▸ List.mem_singleton_self _)
  have hreach'' := hreach'.run (run_app (s := ⟨app', none, app.registry⟩) hticks)
  obtain ⟨next, hnext⟩ := (inv_of_reachable hreach'').exists_onStarted .whole
    (l := ⟨true, ⟨120, 60⟩, [], true⟩) fun _ ↦ rfl
  have hkilled := Lts.Run.single (T := system .whole Codec.u32 "state.bin")
    (Step.relaunch _ _ next (fun _ ↦ rfl) hnext)
  obtain ⟨writer', hwriter', r, n, -, hcontent, hle, -⟩ :=
    acknowledged_survives .whole Codec.u32 "state.bin" hreach'' hm rfl hkilled
  exact ⟨_, _, _, _, writer', r, n, hkilled, List.mem_singleton_self _, hm, hwriter', hle, hcontent⟩

end Konative.App.Session
