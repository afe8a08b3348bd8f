import Konative.App.Durability
import Konative.App.TickCadence
import Konative.Lib.Cadence

/-!
# How much a kill can lose

A process that is killed loses the ticks since its last snapshot.  How many these can be
depends on the writers: the flag lets one of them run at a time, a snapshot that is due
while it is set is left out, and one that fails leaves the old file.  Where neither
happens, and the interval stays what it is while a process runs, the ticks lost are fewer
than two intervals: one for the writer that is under way, and one until the next snapshot
is due (`lag_lt`).

The tick count wraps around, and an interval need not divide `2 ^ 64`.  That costs nothing,
since the snapshot due at the wrap comes early.
-/

namespace Konative.App

open Ecs Entt FileSystem

/-- The thread's call has not failed. -/
def WriterPc.Unfailed : WriterPc → Prop
  | .writing (.returned r) => r.isOk = true
  | .writing _ => True
  | .clearing b | .posting b | .finished b => b = true

/-- What has not failed is under way or has renamed its file. -/
theorem WriterPc.Unfailed.active_or_persisted {pc : WriterPc} (h : pc.Unfailed) :
    pc.Active ∨ pc.persisted = true := by
  cases pc with
  | writing pc | clearing b => exact .inl trivial
  | posting b | finished b => exact .inr h

namespace KonativeAndroidApp

variable {F : Type} {o : FloatOps F} {codec : Codec F} {path : String}
  {s s' : KonativeAndroidApp F} {a : Action} {i : Nat} {w v : Writer F} {content₀ : Option Bytes}

/-- `snapshot_interval_ticks`, as a number of ticks. -/
def interval (s : KonativeAndroidApp F) : Nat := s.config.snapshotIntervalTicks.toInt.toNat

/-- The ticks in which a snapshot is due. -/
def cadence (s : KonativeAndroidApp F) : Cadence := ⟨UInt64.size, s.interval⟩

theorem lt_last_add (h : 0 < s.interval) (t : Nat) : t < s.cadence.last t + s.interval :=
  Cadence.lt_last_add (c := s.cadence) h

/-- `on_tick` divides by it. -/
theorem due_eq (hs : Numbered s) (h : 0 < s.interval) :
    s.due = decide (s.cadence.since s.ticks = 0) := by
  have hnonneg : 0 ≤ s.config.snapshotIntervalTicks := by
    rw [Int32.le_iff_toInt_le]
    unfold interval at h
    show (0 : Int) ≤ _
    omega
  have hdivisor : (divisor s.config.snapshotIntervalTicks).toNat = s.interval := by
    have hcast := toNat_divisor hnonneg
    unfold interval
    omega
  show decide (s.tickCount % divisor s.config.snapshotIntervalTicks = 0) = _
  rw [decide_eq_decide, ← UInt64.toNat_inj, UInt64.toNat_mod, hdivisor, hs.tickCount]
  exact Iff.rfl

/-! ## Writers in time -/

/-- No writer has failed, and none is under way when a snapshot is due. -/
structure Prompt (s : KonativeAndroidApp F) : Prop where
  free : s.pc = .checking → s.due = true → s.snapshotInFlight = false
  unfailed : ∀ {i w}, s.writers i = some w → w.pc.Unfailed

/-- The ticks in which it is settled whether there is a snapshot. -/
def settled (s : KonativeAndroidApp F) : Nat :=
  match s.pc with
  | .checking | .capturing => s.ticks - 1
  | .idle | .draining | .dequeuing _ => s.ticks

/-- There is a writer for each snapshot that was due, at most an interval apart. -/
structure Scheduled (s : KonativeAndroidApp F) : Prop where
  exists_writer : ∀ {i}, i < s.spawned → ∃ w, s.writers i = some w
  none : s.spawned = 0 → s.cadence.last s.settled = 0
  last : ∀ {i w}, s.writers i = some w → i + 1 = s.spawned →
    w.atTick = s.cadence.last s.settled
  first : ∀ {w}, s.writers 0 = some w → w.atTick ≤ s.interval
  gap : ∀ {i w v}, s.writers i = some w → s.writers (i + 1) = some v →
    v.atTick ≤ w.atTick + s.interval
  begun : s.pc = .checking ∨ s.pc = .capturing → 0 < s.ticks
  capturing : s.pc = .capturing → s.cadence.since s.ticks = 0

namespace Scheduled

/-- A step that spawns no writer and settles nothing anew. -/
theorem frame (hs : Scheduled s)
    (hback : ∀ {i w}, s'.writers i = some w → ∃ v, s.writers i = some v ∧ w.atTick = v.atTick)
    (hforward : ∀ {i w}, s.writers i = some w → ∃ v, s'.writers i = some v)
    (hspawned : s'.spawned = s.spawned) (hinterval : s'.interval = s.interval)
    (hsettled : s.cadence.last s'.settled = s.cadence.last s.settled)
    (hbegun : s'.pc = .checking ∨ s'.pc = .capturing → 0 < s'.ticks)
    (hcapturing : s'.pc = .capturing → s.cadence.since s'.ticks = 0) : Scheduled s' := by
  have hcadence : s'.cadence = s.cadence := by rw [cadence, cadence, hinterval]
  refine ⟨fun {i} hi ↦ ?_, fun h ↦ ?_, fun {i w} hi hlast ↦ ?_, fun {w} h0 ↦ ?_,
    fun {i w v} hi hj ↦ ?_, hbegun, ?_⟩
  · rw [hspawned] at hi
    obtain ⟨w, hw⟩ := hs.exists_writer hi
    exact hforward hw
  · rw [hspawned] at h
    rw [hcadence, hsettled]
    exact hs.none h
  · obtain ⟨v, hv, hat⟩ := hback hi
    rw [hspawned] at hlast
    rw [hcadence, hsettled, hat]
    exact hs.last hv hlast
  · obtain ⟨v, hv, hat⟩ := hback h0
    rw [hinterval, hat]
    exact hs.first hv
  · obtain ⟨v', hv', hat'⟩ := hback hi
    obtain ⟨v'', hv'', hat''⟩ := hback hj
    rw [hinterval, hat', hat'']
    exact hs.gap hv' hv''
  · rw [hcadence]
    exact hcapturing

/-- The snapshot that is due. -/
theorem spawn (hs : Scheduled s) (hx : Exclusion s) (hpos : 0 < s.interval)
    (hpc : s.pc = .capturing) : Scheduled s.spawn := by
  have hticks := hs.begun (.inr hpc)
  have hdue : s.cadence.last s.ticks = s.ticks := Cadence.last_of_since_eq_zero (hs.capturing hpc)
  have hsettled : s.settled = s.ticks - 1 := by rw [settled, hpc]
  have hnear := lt_last_add hpos s.settled
  rw [hsettled] at hnear
  refine ⟨fun {j} hj ↦ ?_, nofun, fun {j u} hj hlast ↦ ?_, fun {u} h0 ↦ ?_,
    fun {j u v} hj hk ↦ ?_, ?_, nofun⟩
  · by_cases hne : j = s.spawned
    · exact ⟨_, by rw [hne]; exact Function.update_self ..⟩
    · obtain ⟨u, hu⟩ := hs.exists_writer (i := j) (by
        change j < s.spawned + 1 at hj
        omega)
      exact ⟨u, Lts.update_eq_some_of_ne hne hu⟩
  · rcases Lts.update_eq_some hj with ⟨-, rfl⟩ | ⟨hne, -⟩
    · exact hdue.symm
    · exact absurd (Nat.succ.inj hlast) hne
  · show u.atTick ≤ s.interval
    rcases Lts.update_eq_some h0 with ⟨hzero, rfl⟩ | ⟨-, h0⟩
    · -- none was due before
      have hnone := hs.none hzero.symm
      rw [hsettled] at hnone
      show s.ticks ≤ s.interval
      omega
    · exact hs.first h0
  · show v.atTick ≤ u.atTick + s.interval
    rcases Lts.update_eq_some hk with ⟨hlast, rfl⟩ | ⟨-, hk⟩ <;>
      rcases Lts.update_eq_some hj with ⟨hself, rfl⟩ | ⟨-, hj⟩
    · omega
    · -- the one before is the last that was due
      have hat := hs.last hj hlast
      rw [hsettled] at hat
      show s.ticks ≤ u.atTick + s.interval
      omega
    · have hlt := hx.lt hk
      omega
    · exact hs.gap hj hk
  · rintro (h | h) <;> cases h

end Scheduled

theorem Step.scheduled (h : Step o codec path s a s') (hs : Scheduled s) (hx : Exclusion s)
    (hn : Numbered s) (hprompt : Prompt s) (hpos : 0 < s.interval)
    (hinterval : s'.interval = s.interval) : Scheduled s' := by
  have hforward : ∀ {i w}, s.writers i = some w → ∃ v, s'.writers i = some v := by
    intro i w hi
    obtain ⟨v, hv, -⟩ := h.writer_forward (hx.lt hi) hi
    exact ⟨v, hv⟩
  have hback : s.pc ≠ .capturing ∨ s'.spawned = s.spawned → ∀ {i w}, s'.writers i = some w →
      ∃ v, s.writers i = some v ∧ w.atTick = v.atTick := by
    intro hno i w hi
    rcases h.writer_back hi with ⟨v, hv, he⟩ | ⟨hpc, heq, -⟩
    · exact ⟨v, hv, by rw [he]⟩
    · rw [heq] at hno
      exact absurd hno (by
        rintro (hne | hsame)
        · exact hne hpc
        · exact absurd hsame (Nat.succ_ne_self _))
  -- the steps that neither settle a tick nor begin one
  have hquiet : s'.pc = s.pc → s'.ticks = s.ticks → s'.spawned = s.spawned → Scheduled s' := by
    intro hpc hticks hspawned
    have hsettled : s'.settled = s.settled := by rw [settled, settled, hpc, hticks]
    refine hs.frame (hback (.inr hspawned)) hforward hspawned hinterval (by rw [hsettled]) ?_ ?_
    · rw [hpc, hticks]
      exact hs.begun
    · rw [hpc, hticks]
      exact hs.capturing
  cases h with
  | tick dt reload hpc =>
      refine hs.frame (hback (.inr rfl)) hforward rfl hinterval ?_ (fun _ ↦ Nat.succ_pos _) nofun
      rw [settled, settled, hpc]
      rfl
  | skip hpc hskip =>
      -- the flag is clear when a snapshot is due, so none is
      have hnotDue : s.due = false := by
        rcases hskip with hdue | hflight
        · exact hdue
        · rw [← Bool.not_eq_true]
          intro hdue
          rw [hprompt.free hpc hdue] at hflight
          cases hflight
      rw [due_eq hn hpos, decide_eq_false_iff_not] at hnotDue
      obtain ⟨t, ht⟩ := Nat.exists_eq_succ_of_ne_zero (hs.begun (.inl hpc)).ne'
      refine hs.frame (hback (.inr rfl)) hforward rfl hinterval ?_ (by rintro (h | h) <;> cases h)
        nofun
      rw [settled, settled, hpc]
      show s.cadence.last s.ticks = s.cadence.last (s.ticks - 1)
      rw [ht] at hnotDue ⊢
      exact Cadence.last_succ hnotDue
  | exchange hpc hdue hfree =>
      rw [due_eq hn hpos, decide_eq_true_eq] at hdue
      refine hs.frame (hback (.inr rfl)) hforward rfl hinterval ?_ (fun _ ↦ hs.begun (.inl hpc))
        fun _ ↦ hdue
      rw [settled, settled, hpc]
  | spawn hpc => exact hs.spawn hx hpos hpc
  | tryDequeue hpc | dequeued _ _ _ _ hpc _ | drained hpc =>
      refine hs.frame (hback (.inr rfl)) hforward rfl hinterval ?_ (by rintro (h | h) <;> cases h)
        nofun
      rw [settled, settled, hpc]
  | touch | windowResized | elsewhere | write | written | clear | post => exact hquiet rfl rfl rfl

namespace Scheduled

/-- While a writer is under way, a snapshot was due less than an interval ago. -/
theorem lt_of_active (hs : Scheduled s) (hx : Exclusion s) (hn : Numbered s) (hprompt : Prompt s)
    (hpos : 0 < s.interval) (hi : s.writers i = some w) (hw : w.pc.Active) :
    s.ticks < s.cadence.last s.settled + s.interval := by
  obtain ⟨hflight, -, hne⟩ := hx.active hi hw
  cases hpc : s.pc with
  | checking =>
      have hnotDue : s.due = false := by
        rw [← Bool.not_eq_true]
        intro hdue
        rw [hprompt.free hpc hdue] at hflight
        cases hflight
      rw [due_eq hn hpos, decide_eq_false_iff_not] at hnotDue
      obtain ⟨t, ht⟩ := Nat.exists_eq_succ_of_ne_zero (hs.begun (.inl hpc)).ne'
      have hsettled : s.settled = t := by
        rw [settled, hpc, ht]
        rfl
      rw [ht] at hnotDue
      rw [hsettled, ← Cadence.last_succ hnotDue, ht]
      exact lt_last_add hpos _
  | capturing => exact absurd hpc hne
  | idle | draining | dequeuing b =>
      rw [settled, hpc]
      exact lt_last_add hpos _

/-- The state file is less than two intervals old. -/
theorem recent (hs : Scheduled s) (hx : Exclusion s) (hn : Numbered s)
    (hd : Durable codec path content₀ s) (hprompt : Prompt s) (hpos : 0 < s.interval) :
    s.ticks < 2 * s.interval ∨ ∃ i w, s.writers i = some w ∧ i ∈ s.renamed ∧
      s.ticks < w.atTick + 2 * s.interval := by
  have hnear : s.ticks ≤ s.cadence.last s.settled + s.interval := by
    have hlt := lt_last_add hpos s.settled
    have hle : s.ticks ≤ s.settled + 1 := by
      unfold settled
      split <;> omega
    omega
  have hrenamed : ∀ {i w}, s.writers i = some w → ¬ w.pc.Active → i ∈ s.renamed := fun hi hw ↦
    (hd.mem hi).mpr ((hprompt.unfailed hi).active_or_persisted.resolve_left hw)
  cases hk : s.spawned with
  | zero =>
      have hnone := hs.none hk
      exact .inl (by omega)
  | succ k =>
      obtain ⟨w, hw⟩ := hs.exists_writer (i := k) (by omega)
      have hlast := hs.last hw hk.symm
      by_cases hactive : w.pc.Active
      · have hlt := hs.lt_of_active hx hn hprompt hpos hw hactive
        -- the one before it is done
        cases k with
        | zero =>
            have hfirst := hs.first hw
            exact .inl (by omega)
        | succ j =>
            obtain ⟨v, hv⟩ := hs.exists_writer (i := j) (by omega)
            have hgap := hs.gap hv hw
            refine .inr ⟨j, v, hv, hrenamed hv fun h ↦ ?_, by omega⟩
            have hlast := (hx.active hv h).2.1
            omega
      · exact .inr ⟨k, w, hw, hrenamed hw hactive, by omega⟩

end Scheduled

/-- A process that has just started. -/
theorem scheduled_fresh (fs : FileSystem String) (registry : AppRegistry F) (config : AppConfig)
    (hasConfigDirectory : Bool) (follower : Option Entity) (target : Bool) :
    Scheduled (fresh fs registry config hasConfigDirectory follower target) where
  exists_writer h := absurd h (Nat.not_lt_zero _)
  none _ := Nat.zero_sub _
  last := nofun
  first := nofun
  gap := nofun
  begun := by rintro (h | h) <;> cases h
  capturing := nofun

theorem prompt_fresh (fs : FileSystem String) (registry : AppRegistry F) (config : AppConfig)
    (hasConfigDirectory : Bool) (follower : Option Entity) (target : Bool) :
    Prompt (fresh fs registry config hasConfigDirectory follower target) :=
  ⟨nofun, nofun⟩

/-- `clamp_to_valid` leaves no interval of zero. -/
theorem interval_fresh_pos (fs : FileSystem String) (registry : AppRegistry F) (config : AppConfig)
    (hasConfigDirectory : Bool) (follower : Option Entity) (target : Bool) :
    0 < (fresh fs registry config.clampToValid hasConfigDirectory follower target).interval := by
  have hfloor := Int32.le_iff_toInt_le.mp
    (le_stdMax config.snapshotIntervalTicks minSnapshotIntervalTicks)
  have hmin : minSnapshotIntervalTicks.toInt = 60 := by decide
  show 0 < (stdMax config.snapshotIntervalTicks minSnapshotIntervalTicks).toInt.toNat
  omega

end KonativeAndroidApp

namespace Session

open KonativeAndroidApp

variable {F : Type} {o : FloatOps F} {codec : Codec F} {path : String} {s s' : Session F}
  {e : Event} {w : List Event} {N n T k : Nat}

/-! ## Ticks and counters -/

/-- Every counter has counted this many ticks. -/
def Counted (n : Nat) (r : AppRegistry F) : Prop :=
  ∀ e counter, (r.pool .heartbeatCounter).get? e = some counter → counter.ticks = UInt64.ofNat n

theorem Counted.aged {r r' : AppRegistry F} {m : Nat} (h : Counted n r)
    (h' : Aged (r.pool .heartbeatCounter) m r') : Counted (n + m) r' := by
  intro e counter hc
  rw [h', countersAfter, Pool.get?_patch] at hc
  obtain ⟨base, hbase, rfl⟩ := Option.map_eq_some_iff.mp hc
  show base.ticks + UInt64.ofNat m = UInt64.ofNat (n + m)
  rw [h e base hbase, UInt64.ofNat_add]

/-- The other way: a registry no ticks later has counted the same. -/
theorem Counted.of_aged {r r' : AppRegistry F} (h : Counted n r')
    (h' : Aged (r.pool .heartbeatCounter) 0 r') : Counted n r := by
  rw [Aged, countersAfter_zero] at h'
  intro e counter hc
  rw [← h'] at hc
  exact h e counter hc

/-- A first session starts at zero. -/
theorem Inv.counted_started (hs : Inv codec path s) (h : s.origin = none) :
    Counted 0 s.started := by
  intro e counter hc
  obtain ⟨counters, follower, transform, follow, hpop⟩ := hs.population
  have hmem := (Pool.get?_eq_some (hpop.started.sound.keyed _)).mp hc
  rw [hpop.started.counters_eq] at hmem
  have hdefault := hpop.new h _ hmem
  change counter = .default at hdefault
  rw [hdefault]
  rfl

/-! ## The lag -/

/-- A process whose interval stays what it is, and whose writers succeed and are done before
the next snapshot is due; it may be killed at any time. -/
def steady (o : FloatOps F) (codec : Codec F) (path : String) (N : Nat) :
    Lts (Session F) Event where
  init s := (system o codec path).init s ∧ s.app.interval ≤ N
  step s e s' := Step o codec path s e s' ∧ s'.app.Prompt ∧ s'.app.interval ≤ N ∧
    (e ≠ .relaunch → s'.app.interval = s.app.interval)

/-- What holds of a session at every time. -/
structure Kept (codec : Codec F) (path : String) (N : Nat) (s : Session F) : Prop where
  inv : Inv codec path s
  captures : Captures s
  scheduled : s.app.Scheduled
  prompt : s.app.Prompt
  pos : 0 < s.app.interval
  le : s.app.interval ≤ N

/-- Of the `T` ticks in `k + 1` sessions all but these are in the counters. -/
structure Lag (N T k : Nat) (s : Session F) : Prop where
  exists_base : ∃ base, Counted base s.started ∧ (s.origin = none → base = 0) ∧
    base + s.app.ticks ≤ T ∧ T ≤ base + s.app.ticks + k * (2 * N - 1)

/-- What the next session starts with is not much older. -/
theorem Kept.durable (hs : Kept codec path N s) {base : Nat} (hbase : Counted base s.started) :
    (s.durable = none ∧ s.origin = none ∧ s.app.ticks < 2 * N) ∨
      ∃ r n, s.durable = some r ∧ Counted n r ∧ n ≤ base + s.app.ticks ∧
        base + s.app.ticks < n + 2 * N := by
  have hle := hs.le
  have hrecent := hs.scheduled.recent hs.inv.app.exclusion hs.inv.app.numbered hs.inv.app.durable
    hs.prompt hs.pos
  cases hhead : s.app.renamed.head? with
  | none =>
      have hnil := List.head?_eq_none_iff.mp hhead
      have hlatest : s.app.latest = none := by
        rw [latest, hhead]
        rfl
      have hfew : s.app.ticks < 2 * s.app.interval := by
        rcases hrecent with h | ⟨i, writer, -, hi, -⟩
        · exact h
        · rw [hnil] at hi
          cases hi
      rw [Session.durable, hlatest, Option.none_or]
      cases horigin : s.origin with
      | none => exact .inl ⟨rfl, rfl, by omega⟩
      | some r =>
          exact .inr ⟨r, base, rfl, hbase.aged (hs.inv.aged_origin horigin), by omega, by omega⟩
  | some j =>
      obtain ⟨v, hv⟩ := hs.inv.app.durable.exists_writer (List.mem_of_mem_head? hhead)
      have hat := hs.inv.app.numbered.le hv
      refine .inr ⟨v.captured, base + v.atTick, ?_, hbase.aged (hs.captures j v hv), by omega, ?_⟩
      · rw [Session.durable, latest, hhead, Option.bind_some, hv]
        rfl
      · rcases hrecent with h | ⟨i, writer, hwriter, hi, h⟩
        · omega
        · have hlast := le_atTick_of_head hs.inv.app hhead hv hi hwriter
          omega

/-! ## Runs -/

theorem kept_of_init (h : (steady o codec path N).init s) : Kept codec path N s := by
  obtain ⟨hinit, hle⟩ := h
  have hinv := inv_of_reachable (.of_init hinit)
  have hcaptures := captures_of_init hinit
  obtain ⟨fs, l, app, -, hstart, rfl⟩ := hinit
  obtain ⟨-, e, b, happ⟩ := onStarted_eq_some hstart
  refine ⟨hinv, hcaptures, ?_, ?_, ?_, hle⟩
  · show app.Scheduled
    rw [happ]
    exact scheduled_fresh ..
  · show app.Prompt
    rw [happ]
    exact prompt_fresh ..
  · show 0 < app.interval
    rw [happ]
    exact interval_fresh_pos ..

theorem kept_of_step (h : (steady o codec path N).step s e s') (hs : Kept codec path N s) :
    Kept codec path N s' := by
  obtain ⟨hstep, hprompt, hle, hinterval⟩ := h
  have hinv := hstep.inv hs.inv
  have hcaptures := hstep.captures hs.inv hs.captures
  cases hstep with
  | app a app' hstep =>
      have hsame := hinterval nofun
      refine ⟨hinv, hcaptures, ?_, hprompt, ?_, hle⟩
      · exact hstep.scheduled hs.scheduled hs.inv.app.exclusion hs.inv.app.numbered hs.prompt
          hs.pos hsame
      · rw [hsame]
        exact hs.pos
  | relaunch l app' hopen hstart =>
      obtain ⟨-, e, b, happ⟩ := onStarted_eq_some hstart
      refine ⟨hinv, hcaptures, ?_, hprompt, ?_, hle⟩
      · show app'.Scheduled
        rw [happ]
        exact scheduled_fresh ..
      · show 0 < app'.interval
        rw [happ]
        exact interval_fresh_pos ..

theorem lag_of_init (h : (steady o codec path N).init s) : Lag N 0 0 s := by
  have hs := kept_of_init h
  obtain ⟨⟨fs, l, app, -, hstart, rfl⟩, -⟩ := h
  obtain ⟨-, e, b, happ⟩ := onStarted_eq_some hstart
  have hticks : app.ticks = 0 := by rw [happ]; rfl
  refine ⟨0, hs.inv.counted_started rfl, fun _ ↦ rfl, ?_, ?_⟩
  · show 0 + app.ticks ≤ 0
    omega
  · exact Nat.zero_le _

theorem Lag.step (h : Lag N T k s) (hstep : (steady o codec path N).step s e s')
    (hs : Kept codec path N s) :
    Lag N (T + [e].count (.app .tick)) (k + [e].count .relaunch) s' := by
  obtain ⟨base, hbase, hzero, hupper, hlower⟩ := h.exists_base
  have hs' := kept_of_step hstep hs
  obtain ⟨hstep, -⟩ := hstep
  cases hstep with
  | app a app' hstep =>
      have hticks := ticks_of_step hstep
      refine ⟨base, hbase, hzero, ?_, ?_⟩
      · show base + app'.ticks ≤ _
        omega
      · show T + [Event.app a].count (.app .tick) ≤ base + app'.ticks + (k + 0) * (2 * N - 1)
        rw [Nat.add_zero]
        omega
  | relaunch l app' hopen hstart =>
      obtain ⟨-, e, b, happ⟩ := onStarted_eq_some hstart
      have hticks : app'.ticks = 0 := by rw [happ]; rfl
      have hmul : (k + 1) * (2 * N - 1) = k * (2 * N - 1) + (2 * N - 1) := Nat.succ_mul ..
      rcases hs.durable hbase with ⟨hnone, horigin, hfew⟩ | ⟨r, n, hr, hn, hle, hlt⟩
      · -- nothing was saved, and the next session starts anew
        have hbase0 := hzero horigin
        refine ⟨0, hs'.inv.counted_started hnone, fun _ ↦ rfl, ?_, ?_⟩
        · show 0 + app'.ticks ≤ T
          omega
        · show T ≤ 0 + app'.ticks + (k + 1) * (2 * N - 1)
          omega
      · refine ⟨n, hn.of_aged (hs'.inv.aged_origin hr), ?_, ?_, ?_⟩
        · intro hnone
          change s.durable = none at hnone
          rw [hr] at hnone
          cases hnone
        · show n + app'.ticks ≤ T
          omega
        · show T ≤ n + app'.ticks + (k + 1) * (2 * N - 1)
          omega

/-- However often the process is killed, and whenever: where its interval is at most `N` and
stays what it is while a process runs, no writer fails, and none is under way when the next
snapshot is due, the counters are behind the ticks by less than two intervals a kill. -/
theorem lag_lt (o : FloatOps F) (codec : Codec F) (path : String)
    (h₀ : (steady o codec path N).init s) (h : (steady o codec path N).Run s w s') :
    ∃ n, n ≤ w.count (.app .tick) ∧
      w.count (.app .tick) ≤ n + w.count .relaunch * (2 * N - 1) ∧
      ∀ e counter, (s'.app.registry.pool .heartbeatCounter).get? e = some counter →
        counter.ticks = UInt64.ofNat n := by
  have hboth : Kept codec path N s' ∧ Lag N (w.count (.app .tick)) (w.count .relaunch) s' := by
    refine h.history
      (P := fun w t ↦ Kept codec path N t ∧ Lag N (w.count (.app .tick)) (w.count .relaunch) t)
      ⟨kept_of_init h₀, lag_of_init h₀⟩ ?_
    rintro w t e t' - ⟨hs, hlag⟩ hstep
    rw [List.count_append, List.count_append]
    exact ⟨kept_of_step hstep hs, hlag.step hstep hs⟩
  obtain ⟨hs, hlag⟩ := hboth
  obtain ⟨base, hbase, -, hupper, hlower⟩ := hlag.exists_base
  exact ⟨base + s'.app.ticks, hupper, hlower, hbase.aged hs.inv.aged⟩

/-! ### A snapshot, a kill and a restart -/

/-- A step of a process that stays steady. -/
theorem steady_app {a : Action} {app' : KonativeAndroidApp F}
    (hstep : KonativeAndroidApp.Step o codec path s.app a app') (hprompt : app'.Prompt)
    (hinterval : app'.interval = s.app.interval) (hN : s.app.interval = N) :
    (steady o codec path N).step s (.app a) { s with app := app' } :=
  ⟨.app s a app' hstep, hprompt, (hinterval.trans hN).le, fun _ ↦ hinterval⟩

theorem interval_of_shortest {app : KonativeAndroidApp F}
    (h : app.config.snapshotIntervalTicks = minSnapshotIntervalTicks) : app.interval = 60 := by
  rw [interval, h]
  decide

theorem prompt_of_unspawned {app : KonativeAndroidApp F} (hfree : app.snapshotInFlight = false)
    (h : ∀ i, app.writers i = none) : app.Prompt := by
  refine ⟨fun _ _ ↦ hfree, fun {i w} hi ↦ ?_⟩
  rw [h] at hi
  cases hi

/-- The beginning of a tick. -/
theorem steady_beginTick (hs : Quiet s.app) (hwriters : ∀ i, s.app.writers i = none) :
    (steady o codec path 60).step s (.app .tick)
      { s with app := s.app.beginTick o (o.ofInt 0) none } :=
  steady_app (.tick s.app _ none hs.idle) (prompt_of_unspawned hs.free hwriters)
    ((interval_of_shortest (hs.interval_beginTick o _)).trans
      (interval_of_shortest hs.interval).symm) (interval_of_shortest hs.interval)

/-- A tick in which no snapshot is due. -/
theorem exists_run_undue (hs : Quiet s.app) (hwriters : ∀ i, s.app.writers i = none)
    (hdue : (s.app.tickCount + 1) % 60 ≠ 0) :
    ∃ app', (steady o codec path 60).Run s
        [.app .tick, .app .onTick, .app .onTick, .app .onTick] { s with app := app' } ∧
      Quiet app' ∧ (∀ i, app'.writers i = none) ∧
      app'.tickCount = s.app.tickCount + 1 := by
  let t := s.app.beginTick o (o.ofInt 0) none
  have ht : t.interval = 60 := interval_of_shortest (hs.interval_beginTick o _)
  have hskip : t.due = false := by rw [hs.due_beginTick, decide_eq_false hdue]
  have hempty : TickPc.dequeuing t.snapshotQueue.isEmpty = .dequeuing true := by
    show TickPc.dequeuing s.app.snapshotQueue.isEmpty = _
    rw [hs.queue]
    rfl
  have hprompt : ∀ pc, Prompt { t with pc } := fun _ ↦ prompt_of_unspawned hs.free hwriters
  exact ⟨{ t with pc := .idle }, .cons (steady_beginTick hs hwriters) <|
    .cons (steady_app (.skip t rfl (.inl hskip)) (hprompt _) rfl ht) <|
    .cons (steady_app (.tryDequeue _ rfl) (hprompt _) rfl ht) <|
    .single (steady_app (.drained _ hempty) (hprompt _) rfl ht),
    ⟨rfl, hs.free, hs.queue, hs.interval_beginTick o _, hs.directory⟩, hwriters, rfl⟩

/-- The ticks before the first snapshot is due. -/
theorem exists_run_before_due (o : FloatOps F) (codec : Codec F) (path : String)
    (hs : Quiet s.app) (hwriters : ∀ i, s.app.writers i = none)
    (hzero : s.app.tickCount = 0) (hn : n < 60) :
    ∃ w app', (steady o codec path 60).Run s w { s with app := app' } ∧ Quiet app' ∧
      (∀ i, app'.writers i = none) ∧ app'.tickCount.toNat = n ∧
      w.count (.app .tick) = n ∧ w.count .relaunch = 0 := by
  induction n with
  | zero => exact ⟨[], s.app, .nil s, hs, hwriters, by rw [hzero]; rfl, rfl, rfl⟩
  | succ n ih =>
      obtain ⟨w, t, hr, ht, hwriters, htick, hcount, hkills⟩ := ih (Nat.lt_of_succ_lt hn)
      have hnext : (t.tickCount + 1).toNat = n + 1 := by
        rw [UInt64.toNat_add, htick]
        refine Nat.mod_eq_of_lt ?_
        show n + 1 < 2 ^ 64
        omega
      have hdue : (t.tickCount + 1) % 60 ≠ 0 := by
        intro h
        have hmod := congrArg UInt64.toNat h
        rw [UInt64.toNat_mod, hnext] at hmod
        change (n + 1) % 60 = 0 at hmod
        omega
      obtain ⟨t', hr', ht', hwriters', hcount'⟩ :=
        exists_run_undue (s := { s with app := t }) ht hwriters hdue
      refine ⟨_, t', hr.append hr', ht', hwriters', by rw [hcount', hnext], ?_, ?_⟩
      · rw [List.count_append, hcount]
        rfl
      · rw [List.count_append, hkills]
        rfl

/-- A tick in which one is, up to the spawn of its writer. -/
theorem exists_run_due (o : FloatOps F) (codec : Codec F) (path : String)
    (hs : Quiet s.app) (hwriters : ∀ i, s.app.writers i = none)
    (hdue : (s.app.tickCount + 1) % 60 = 0) :
    ∃ app' i writer, (steady o codec path 60).Run s [.app .tick, .app .onTick, .app .onTick]
        { s with app := app' } ∧
      app'.Prompt ∧ app'.pc = .draining ∧ app'.interval = 60 ∧
      app'.writers i = some writer ∧ writer.pc = .writing .opening := by
  let t := s.app.beginTick o (o.ofInt 0) none
  let u : KonativeAndroidApp F := { t with snapshotInFlight := true, pc := .capturing }
  have ht : t.interval = 60 := interval_of_shortest (hs.interval_beginTick o _)
  have htrue : t.due = true := by rw [hs.due_beginTick, decide_eq_true hdue]
  have hu : u.Prompt := by
    refine ⟨nofun, fun {i w} hi ↦ ?_⟩
    change s.app.writers i = some w at hi
    rw [hwriters] at hi
    cases hi
  have hpc : (if s.app.hasConfigDirectory then WriterPc.writing .opening else .clearing false) =
      .writing .opening := if_pos hs.directory
  have hspawn : u.spawn.Prompt := by
    refine ⟨nofun, fun {i w} hi ↦ ?_⟩
    rcases Lts.update_eq_some hi with ⟨-, rfl⟩ | ⟨-, hi⟩
    · show WriterPc.Unfailed (if s.app.hasConfigDirectory then _ else _)
      rw [hpc]
      trivial
    · exact hu.unfailed hi
  exact ⟨u.spawn, s.app.spawned, _, .cons (steady_beginTick hs hwriters) <|
    .cons (steady_app (.exchange t rfl htrue hs.free) hu rfl ht) <|
    .single (steady_app (.spawn u rfl) hspawn rfl ht), hspawn, rfl, ht,
    Function.update_self .., hpc⟩

/-- A call that ends well has not failed before. -/
theorem unfailed_of_run {c : WriteCall} {x y : FileSystem String × WritePc}
    {labels : List WriteLabel} (hr : (writeSystem path c).Run x labels y)
    (hy : (WriterPc.writing y.2).Unfailed) : (WriterPc.writing x.2).Unfailed := by
  cases hr with
  | nil _ => exact hy
  | @cons _ x' _ ℓ _ hstep _ =>
      obtain ⟨fs, pc⟩ := x
      obtain ⟨fs', pc'⟩ := x'
      change WriteStep path c fs pc ℓ fs' pc' at hstep
      cases hstep <;> trivial

/-- In a steady session such a call may run for as long as it likes. -/
theorem exists_run_unfailed {x y : FileSystem String × WritePc} {labels : List WriteLabel}
    {i : Nat} {v : Writer F} (hr : (writeSystem path (v.call codec)).Run x labels y)
    (hy : (WriterPc.writing y.2).Unfailed) (hfs : s.app.fs = x.1)
    (hi : s.app.writers i = some v) (hpc : v.pc = .writing x.2)
    (hdraining : s.app.pc = .draining) (hprompt : s.app.Prompt) (hN : s.app.interval = N) :
    ∃ app', (steady o codec path N).Run s (List.replicate labels.length (.app (.writer i)))
        { s with app := app' } ∧
      app'.writers i = some { v with pc := .writing y.2 } := by
  generalize hc : v.call codec = c at hr
  induction hr generalizing s v with
  | nil x => exact ⟨s.app, .nil s, by rw [hi, ← hpc]⟩
  | @cons x x' y ℓ labels hstep hrest ih =>
      subst hc
      let app : KonativeAndroidApp F :=
        { s.app with
          fs := x'.1
          writers := Function.update s.app.writers i (some { v with pc := .writing x'.2 })
          renamed := if ℓ = .renamed then i :: s.app.renamed else s.app.renamed }
      have happ : app.Prompt := by
        refine ⟨fun h ↦ ?_, fun {j u} hj ↦ ?_⟩
        · cases hdraining.symm.trans h
        · rcases Lts.update_eq_some hj with ⟨-, rfl⟩ | ⟨-, hj⟩
          · exact unfailed_of_run hrest hy
          · exact hprompt.unfailed hj
      have hwrite : KonativeAndroidApp.Step o codec path s.app (.writer i) app := by
        refine .write s.app i v x.2 x'.2 x'.1 ℓ hi hpc ?_
        rw [hfs]
        exact hstep
      obtain ⟨app', hr', hw⟩ := ih (v := { v with pc := .writing x'.2 })
        (s := { s with app }) hy rfl (Function.update_self ..) rfl hdraining happ hN rfl
      exact ⟨app', .cons (steady_app hwrite happ rfl hN) hr', hw⟩

/-- A new process has renamed its first snapshot into place in its sixtieth tick. -/
theorem exists_run_renamed (o : FloatOps F) (codec : Codec F) (path : String)
    (hs : Quiet s.app) (hwriters : ∀ i, s.app.writers i = none) (hzero : s.app.tickCount = 0) :
    ∃ w app' i writer, (steady o codec path 60).Run s w { s with app := app' } ∧
      app'.writers i = some writer ∧ writer.pc.persisted = true ∧
      w.count (.app .tick) = 60 ∧ w.count .relaunch = 0 := by
  obtain ⟨w, t, hticks, ht, hwriters, htick, hcount, hkills⟩ :=
    exists_run_before_due o codec path hs hwriters hzero (n := 59) (by decide)
  have hsixty : t.tickCount + 1 = 60 := by
    rw [← UInt64.toNat_inj, UInt64.toNat_add, htick]
    rfl
  obtain ⟨u, i, writer, hdue, hu, hdraining, hinterval, hwriter, hopening⟩ :=
    exists_run_due o codec path (s := { s with app := t }) ht hwriters (by rw [hsixty]; decide)
  obtain ⟨fs', labels, hwrite⟩ := exists_run_ok path (writer.call codec) u.fs
  obtain ⟨app', hrenamed, hwritten⟩ := exists_run_unfailed (o := o) (s := { s with app := u })
    hwrite rfl rfl hwriter hopening hdraining hu hinterval
  have hwords : ∀ {e}, e ≠ .app (.writer i) →
      (List.replicate labels.length (Event.app (.writer i))).count e = 0 :=
    fun he ↦ List.count_eq_zero.mpr fun h ↦ he (List.eq_of_mem_replicate h)
  refine ⟨_, app', i, _, (hticks.append hdue).append hrenamed, hwritten, rfl, ?_, ?_⟩
  · rw [List.count_append, List.count_append, hcount, hwords (by simp)]
    rfl
  · rw [List.count_append, List.count_append, hkills, hwords (by simp)]
    rfl

/-- A process that saves a snapshot in its sixtieth tick and is killed once the file is renamed,
and the first tick of the next one, which has restored it. -/
theorem lag_lt_killed : ∃ (s s' : Session UInt32) (w : List Event) (n : Nat),
    (steady .whole Codec.u32 "state.bin" 60).Run s w s' ∧ s.origin = none ∧
      s'.origin.isSome = true ∧ w.count (.app .tick) = 61 ∧ w.count .relaunch = 1 ∧
      n ≤ 61 ∧ 61 ≤ n + 119 ∧
      ∀ e counter, (s'.app.registry.pool .heartbeatCounter).get? e = some counter →
        counter.ticks = UInt64.ofNat n := by
  let l : Launch := ⟨true, ⟨120, 60⟩, [], true⟩
  have hquiet : ∀ {fs : FileSystem String} {app : KonativeAndroidApp UInt32},
      onStarted .whole Codec.u32 "state.bin" l fs = some app →
      Quiet app ∧ app.Prompt ∧ (∀ i, app.writers i = none) ∧ app.tickCount = 0 := by
    intro fs app hstart
    obtain ⟨-, e, b, happ⟩ := onStarted_eq_some hstart
    rw [happ]
    exact ⟨quiet_fresh .., prompt_fresh .., fun _ ↦ rfl, rfl⟩
  have hnone : (FileSystem.empty : FileSystem String).content "state.bin" = none := rfl
  obtain ⟨app, -, -, hstart, -⟩ := onStarted_of_none .whole Codec.u32 l hnone
  obtain ⟨happ, -, hwriters, hzero⟩ := hquiet hstart
  have hinit : (steady .whole Codec.u32 "state.bin" 60).init ⟨app, none, app.registry⟩ :=
    ⟨⟨_, _, app, hnone, hstart, rfl⟩, (interval_of_shortest happ.interval).le⟩
  obtain ⟨w, app', i, writer, hsaves, hwriter, hpersisted, hticks, hkills⟩ :=
    exists_run_renamed .whole Codec.u32 "state.bin" (s := ⟨app, none, app.registry⟩)
      happ hwriters hzero
  have hs : Kept Codec.u32 "state.bin" 60 ⟨app', none, app.registry⟩ :=
    hsaves.invariant (fun hstep hs ↦ kept_of_step hstep hs) (kept_of_init hinit)
  -- the kill, and the next process
  obtain ⟨next, hnext⟩ := hs.inv.exists_onStarted .whole (l := l) fun _ ↦ rfl
  obtain ⟨hnext', hprompt, hwriters', -⟩ := hquiet hnext
  have hkilled : (steady .whole Codec.u32 "state.bin" 60).step _ .relaunch
      ⟨next, Session.durable _, next.registry⟩ :=
    ⟨.relaunch _ l next (fun _ ↦ rfl) hnext, hprompt, (interval_of_shortest hnext'.interval).le,
      fun h ↦ absurd rfl h⟩
  have horigin : (Session.durable ⟨app', none, app.registry⟩).isSome = true := by
    rw [durable, Option.isSome_or, (latest_isSome hs.inv.app hwriter hpersisted).2]
    rfl
  have hrun := hsaves.append (.cons hkilled (.single (steady_beginTick hnext' hwriters')))
  obtain ⟨n, hupper, hlower, hcounters⟩ := lag_lt .whole Codec.u32 "state.bin" hinit hrun
  rw [List.count_append, hticks] at hupper hlower
  rw [List.count_append, hkills] at hlower
  refine ⟨_, _, _, n, hrun, rfl, horigin, ?_, ?_, hupper, hlower, hcounters⟩
  · rw [List.count_append, hticks]
    rfl
  · rw [List.count_append, hkills]
    rfl

end Session

end Konative.App
