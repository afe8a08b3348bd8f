import Konative.App.KonativeAndroidApp

/-!
# The snapshot writers of a process

What holds in every state a process reaches, however its frame thread and its
writer threads interleave and whatever the config file does to the interval.  The
invariant is in four parts, each of them kept by every step:

* `Exclusion` — a thread that has not cleared `snapshot_in_flight_` is the last one
  spawned, and the flag is set;
* `Numbered` — a writer's `unique` is the tick count at its spawn, and later writers
  were spawned in later ticks;
* `Durable` — the state file is the image of the last writer that renamed its file,
  and renames happen in the order of spawning;
* `Ledger` — the events in the queue, in the dispatcher and delivered are those of
  the finished writers, one each.

The flag is cleared before the event is posted, so a new writer may start beside the
tail of the old one; `Exclusion` speaks of the part before the tail and `Ledger` of
the tail.
-/

namespace Konative.App

open Ecs Entt FileSystem

namespace KonativeAndroidApp

variable {F : Type} {o : FloatOps F} {codec : Codec F} {path : String}
  {s s' : KonativeAndroidApp F} {a : Action} {i j : Nat} {w v : Writer F}

/-! ## What a step does to the writers -/

/-- A writer after a step is one from before it with another program counter, or the
one just spawned. -/
theorem Step.writer_back (h : Step o codec path s a s') (hi : s'.writers i = some w) :
    (∃ v, s.writers i = some v ∧ w = { v with pc := w.pc }) ∨
      (s.pc = .capturing ∧ s' = s.spawn ∧ i = s.spawned ∧ w.captured = s.registry ∧
        w.unique = s.tickCount ∧ w.atTick = s.ticks) := by
  have hsame : ∀ {k : Nat} {u : Writer F} {pc : WriterPc}, s.writers k = some u →
      Function.update s.writers k (some { u with pc }) i = some w →
      ∃ v, s.writers i = some v ∧ w = { v with pc := w.pc } := by
    intro k u pc hk hi
    rcases Lts.update_eq_some hi with ⟨rfl, rfl⟩ | ⟨-, hi⟩
    · exact ⟨u, hk, rfl⟩
    · exact ⟨w, hi, rfl⟩
  cases h with
  | tick | skip _ _ | exchange _ _ _ | tryDequeue _ | dequeued _ _ _ _ _ _ | drained _ | touch
  | windowResized | elsewhere => exact .inl ⟨w, hi, rfl⟩
  | spawn hpc =>
      rcases Lts.update_eq_some hi with ⟨rfl, rfl⟩ | ⟨-, hi⟩
      · exact .inr ⟨hpc, rfl, rfl, rfl, rfl, rfl⟩
      · exact .inl ⟨w, hi, rfl⟩
  | write _ _ _ _ _ _ hk _ _ | written _ _ _ hk _ | clear _ _ _ hk _ | post _ _ _ hk _ =>
      exact .inl (hsame hk hi)

/-- A writer stays, and one that has run to completion stays as it is. -/
theorem Step.writer_forward (h : Step o codec path s a s') (hlt : i < s.spawned)
    (hi : s.writers i = some w) :
    ∃ v, s'.writers i = some v ∧ v = { w with pc := v.pc } ∧ (w.pc.Finished → v = w) := by
  have hmoved : ∀ {k : Nat} {u : Writer F} {pc : WriterPc}, s.writers k = some u →
      ¬ u.pc.Finished → ∃ v, Function.update s.writers k (some { u with pc }) i = some v ∧
        v = { w with pc := v.pc } ∧ (w.pc.Finished → v = w) := by
    intro k u pc hk hu
    by_cases hik : i = k
    · subst hik
      obtain rfl := Option.some.inj (hi.symm.trans hk)
      exact ⟨_, Function.update_self .., rfl, fun hf ↦ absurd hf hu⟩
    · exact ⟨w, Lts.update_eq_some_of_ne hik hi, rfl, fun _ ↦ rfl⟩
  cases h with
  | tick | skip _ _ | exchange _ _ _ | tryDequeue _ | dequeued _ _ _ _ _ _ | drained _ | touch
  | windowResized | elsewhere => exact ⟨w, hi, rfl, fun _ ↦ rfl⟩
  | spawn _ => exact ⟨w, Lts.update_eq_some_of_ne (Nat.ne_of_lt hlt) hi, rfl, fun _ ↦ rfl⟩
  | write _ _ _ _ _ _ hk hpc _ | written _ _ _ hk hpc | clear _ _ _ hk hpc | post _ _ _ hk hpc =>
      exact hmoved hk (by rw [hpc]; exact id)

/-! ## One writer at a time -/

/-- At most one writer is between its spawn and its clearing of the flag. -/
structure Exclusion (s : KonativeAndroidApp F) : Prop where
  lt : ∀ {i w}, s.writers i = some w → i < s.spawned
  active : ∀ {i w}, s.writers i = some w → w.pc.Active →
    s.snapshotInFlight = true ∧ i + 1 = s.spawned ∧ s.pc ≠ .capturing
  capturing : s.pc = .capturing → s.snapshotInFlight = true

namespace Exclusion

/-- What the flag says survives a step that leaves it and the writers alone. -/
theorem frame (hs : Exclusion s) (hw : s'.writers = s.writers) (hn : s'.spawned = s.spawned)
    (hf : s'.snapshotInFlight = s.snapshotInFlight) (hpc : s'.pc ≠ .capturing) : Exclusion s' := by
  refine ⟨fun hi ↦ ?_, fun hi ha ↦ ?_, fun h ↦ absurd h hpc⟩
  · rw [hn]
    exact hs.lt (hw ▸ hi)
  · obtain ⟨hfl, hlast, -⟩ := hs.active (hw ▸ hi) ha
    exact ⟨hf.trans hfl, hlast.trans hn.symm, hpc⟩

/-- A writer may go on in the part before it clears the flag, or after it. -/
theorem advance (hs : Exclusion s) (hi : s.writers i = some w)
    (hw : s'.writers = Function.update s.writers i (some v)) (hn : s'.spawned = s.spawned)
    (hf : s'.snapshotInFlight = s.snapshotInFlight) (hpc : s'.pc = s.pc)
    (ha : v.pc.Active → w.pc.Active) : Exclusion s' := by
  refine ⟨?_, ?_, ?_⟩
  · intro j u hj
    rw [hw] at hj
    rw [hn]
    rcases Lts.update_eq_some hj with ⟨rfl, -⟩ | ⟨-, hj⟩
    · exact hs.lt hi
    · exact hs.lt hj
  · intro j u hj hu
    rw [hw] at hj
    rw [hf, hn, hpc]
    rcases Lts.update_eq_some hj with ⟨rfl, rfl⟩ | ⟨-, hj⟩
    · exact hs.active hi (ha hu)
    · exact hs.active hj hu
  · intro h
    rw [hf]
    exact hs.capturing (hpc.symm.trans h)

/-- Two writers before their clearing of the flag are one. -/
theorem eq_of_active (hs : Exclusion s) (hi : s.writers i = some w) (hj : s.writers j = some v)
    (hw : w.pc.Active) (hv : v.pc.Active) : i = j := by
  have h₁ := (hs.active hi hw).2.1
  have h₂ := (hs.active hj hv).2.1
  omega

end Exclusion

theorem Step.exclusion (h : Step o codec path s a s') (hs : Exclusion s) : Exclusion s' := by
  cases h with
  | tick dt reload hpc => exact hs.frame rfl rfl rfl nofun
  | skip hpc hskip => exact hs.frame rfl rfl rfl nofun
  | exchange hpc hdue hfree =>
      -- the flag was clear, so nobody is before its clearing
      refine ⟨hs.lt, fun hi ha ↦ ?_, fun _ ↦ rfl⟩
      have hset := (hs.active hi ha).1
      rw [hfree] at hset
      cases hset
  | spawn hpc =>
      refine ⟨fun {j u} hj ↦ ?_, fun {j u} hj hu ↦ ⟨hs.capturing hpc, ?_, nofun⟩, nofun⟩
      · show j < s.spawned + 1
        rcases Lts.update_eq_some hj with ⟨rfl, -⟩ | ⟨-, hj⟩
        · exact Nat.lt_succ_self _
        · exact Nat.lt_succ_of_lt (hs.lt hj)
      · rcases Lts.update_eq_some hj with ⟨rfl, -⟩ | ⟨-, hj⟩
        · rfl
        · exact absurd hpc (hs.active hj hu).2.2
  | tryDequeue hpc => exact hs.frame rfl rfl rfl nofun
  | dequeued b m q₁ q₂ hpc hq => exact hs.frame rfl rfl rfl nofun
  | drained hpc => exact hs.frame rfl rfl rfl nofun
  | touch x y hpc =>
      refine hs.frame rfl rfl rfl ?_
      show s.pc ≠ .capturing
      rw [hpc]
      exact nofun
  | windowResized width height hpc =>
      refine hs.frame rfl rfl rfl ?_
      show s.pc ≠ .capturing
      rw [hpc]
      exact nofun
  | write i w pc pc' fs' ℓ hi hpc hstep =>
      refine hs.advance hi rfl rfl rfl rfl fun _ ↦ ?_
      rw [hpc]
      trivial
  | written i w r hi hpc =>
      refine hs.advance hi rfl rfl rfl rfl fun _ ↦ ?_
      rw [hpc]
      trivial
  | clear i w b hi hpc =>
      have hactive : w.pc.Active := by rw [hpc]; trivial
      -- whoever else was before its clearing would have been this writer
      refine ⟨?_, ?_, ?_⟩
      · intro j u hj
        rcases Lts.update_eq_some hj with ⟨rfl, -⟩ | ⟨-, hj⟩
        · exact hs.lt hi
        · exact hs.lt hj
      · intro j u hj hu
        rcases Lts.update_eq_some hj with ⟨rfl, rfl⟩ | ⟨hne, hj⟩
        · exact hu.elim
        · exact absurd (hs.eq_of_active hj hi hu hactive) hne
      · intro hc
        exact absurd hc (hs.active hi hactive).2.2
  | post i w b hi hpc => exact hs.advance hi rfl rfl rfl rfl False.elim
  | elsewhere fs' hpath htemp => exact ⟨hs.lt, hs.active, hs.capturing⟩

/-! ## The numbers of the writers -/

/-- Each writer carries the tick count of its spawn, and no two were spawned in one
tick. -/
structure Numbered (s : KonativeAndroidApp F) : Prop where
  tickCount : s.tickCount = UInt64.ofNat s.ticks
  unique : ∀ {i w}, s.writers i = some w → w.unique = UInt64.ofNat w.atTick
  mono : ∀ {i j w v}, s.writers i = some w → s.writers j = some v → i < j → w.atTick < v.atTick
  le : ∀ {i w}, s.writers i = some w → w.atTick ≤ s.ticks
  lt : s.pc = .checking ∨ s.pc = .capturing → ∀ {i w}, s.writers i = some w → w.atTick < s.ticks

/-- A step that spawns no writer keeps the numbers, if it does not step back in the
tick. -/
theorem Numbered.frame (hs : Numbered s) (hw : ∀ {i w}, s'.writers i = some w →
      ∃ v, s.writers i = some v ∧ w = { v with pc := w.pc })
    (hticks : s'.ticks = s.ticks) (hcount : s'.tickCount = s.tickCount)
    (hpc : s'.pc = .checking ∨ s'.pc = .capturing → s.pc = .checking ∨ s.pc = .capturing) :
    Numbered s' := by
  refine ⟨?_, fun hi ↦ ?_, fun hi hj hij ↦ ?_, fun hi ↦ ?_, fun hp {i w} hi ↦ ?_⟩
  · rw [hcount, hticks, hs.tickCount]
  · obtain ⟨v, hv, he⟩ := hw hi
    have hu := hs.unique hv
    rw [he]
    exact hu
  · obtain ⟨v, hv, he⟩ := hw hi
    obtain ⟨v', hv', he'⟩ := hw hj
    have hlt := hs.mono hv hv' hij
    rw [he, he']
    exact hlt
  · obtain ⟨v, hv, he⟩ := hw hi
    have hle := hs.le hv
    rw [he, hticks]
    exact hle
  · obtain ⟨v, hv, he⟩ := hw hi
    have hlt := hs.lt (hpc hp) hv
    rw [he, hticks]
    exact hlt

theorem Step.numbered (h : Step o codec path s a s') (hx : Exclusion s) (hs : Numbered s) :
    Numbered s' := by
  have hback : s.pc ≠ .capturing → ∀ {i w}, s'.writers i = some w →
      ∃ v, s.writers i = some v ∧ w = { v with pc := w.pc } := fun hpc {i w} hi ↦
    (h.writer_back hi).resolve_right fun hspawn ↦ hpc hspawn.1
  cases h with
  | tick dt reload hpc =>
      refine ⟨?_, hs.unique, hs.mono, fun hi ↦ ?_, fun _ {i w} hi ↦ ?_⟩
      · show s.tickCount + 1 = UInt64.ofNat (s.ticks + 1)
        rw [UInt64.ofNat_add, ← hs.tickCount]
        rfl
      · exact Nat.le_succ_of_le (hs.le hi)
      · exact Nat.lt_succ_of_le (hs.le hi)
  | spawn hpc =>
      refine ⟨hs.tickCount, fun {j u} hj ↦ ?_, fun {j k u u'} hj hk hjk ↦ ?_, fun {j u} hj ↦ ?_,
        nofun⟩
      · rcases Lts.update_eq_some hj with ⟨rfl, rfl⟩ | ⟨-, hj⟩
        · exact hs.tickCount
        · exact hs.unique hj
      · rcases Lts.update_eq_some hj with ⟨rfl, rfl⟩ | ⟨-, hj⟩ <;>
          rcases Lts.update_eq_some hk with ⟨rfl, rfl⟩ | ⟨-, hk⟩
        · exact absurd hjk (Nat.lt_irrefl _)
        · exact absurd hjk (Nat.lt_asymm (hx.lt hk))
        · exact hs.lt (.inr hpc) hj
        · exact hs.mono hj hk hjk
      · rcases Lts.update_eq_some hj with ⟨rfl, rfl⟩ | ⟨-, hj⟩
        · exact Nat.le_refl _
        · exact hs.le hj
  | skip hpc hskip => exact hs.frame (hback (by rw [hpc]; nofun)) rfl rfl nofun
  | exchange hpc hdue hfree => exact hs.frame (hback (by rw [hpc]; nofun)) rfl rfl fun _ ↦ .inl hpc
  | tryDequeue hpc => exact hs.frame (hback (by rw [hpc]; nofun)) rfl rfl nofun
  | dequeued b m q₁ q₂ hpc hq => exact hs.frame (hback (by rw [hpc]; nofun)) rfl rfl nofun
  | drained hpc => exact hs.frame (hback (by rw [hpc]; nofun)) rfl rfl nofun
  | touch x y hpc | windowResized width height hpc =>
      exact hs.frame (hback (by rw [hpc]; nofun)) rfl rfl id
  | elsewhere fs' hpath htemp => exact ⟨hs.tickCount, hs.unique, hs.mono, hs.le, hs.lt⟩
  | write i w pc pc' fs' ℓ hi hpc hstep =>
      have hactive : w.pc.Active := by rw [hpc]; trivial
      exact hs.frame (hback (hx.active hi hactive).2.2) rfl rfl id
  | written i w r hi hpc =>
      have hactive : w.pc.Active := by rw [hpc]; trivial
      exact hs.frame (hback (hx.active hi hactive).2.2) rfl rfl id
  | clear i w b hi hpc =>
      have hactive : w.pc.Active := by rw [hpc]; trivial
      exact hs.frame (hback (hx.active hi hactive).2.2) rfl rfl id
  | post i w b hi hpc =>
      refine hs.frame (fun {j u} hj ↦ ?_) rfl rfl id
      rcases Lts.update_eq_some hj with ⟨rfl, rfl⟩ | ⟨-, hj⟩
      · exact ⟨w, hi, rfl⟩
      · exact ⟨u, hj, rfl⟩

/-! ## The state file -/

/-- The registry that the last writer to rename its file had captured. -/
def latest (s : KonativeAndroidApp F) : Option (AppRegistry F) :=
  s.renamed.head?.bind fun i ↦ (s.writers i).map Writer.captured

/-- The state file is the image of the last writer that renamed its file, or what it
was when the process started. -/
structure Durable (codec : Codec F) (path : String) (content₀ : Option Bytes)
    (s : KonativeAndroidApp F) : Prop where
  tracks : ∀ {i w pc}, s.writers i = some w → w.pc = .writing pc →
    Tracks path (w.call codec) s.fs pc
  mem : ∀ {i w}, s.writers i = some w → (i ∈ s.renamed ↔ w.pc.persisted = true)
  exists_writer : ∀ {i}, i ∈ s.renamed → ∃ w, s.writers i = some w
  sorted : s.renamed.Pairwise (· > ·)
  content : s.fs.content path = (s.latest.map (stateImage codec)).or content₀

/-- A call that has not returned has renamed nothing. -/
theorem persisted_writing_of_not_finished {pc : WritePc} (h : ¬ pc.Finished) :
    (WriterPc.writing pc).persisted = false := by
  cases pc with
  | returned r => exact absurd trivial h
  | opening | writing _ _ | closing _ _ | movingIntoPlace | removing => rfl

/-- A call that has renamed has returned `ok`. -/
theorem eq_ok_of_persisted_writing {pc : WritePc} (h : (WriterPc.writing pc).persisted = true) :
    ∃ n, pc = .returned (.ok n) := by
  cases pc with
  | returned r =>
      cases r with
      | ok n => exact ⟨n, rfl⟩
      | error e => cases h
  | opening | writing _ _ | closing _ _ | movingIntoPlace | removing => cases h

variable {content₀ : Option Bytes}

namespace Durable

/-- The last writer that renamed is the same where the renames are and the writers
kept what they captured. -/
theorem latest_eq (hs : Durable codec path content₀ s) (hr : s'.renamed = s.renamed)
    (hw : ∀ {i w}, s.writers i = some w → ∃ v, s'.writers i = some v ∧ v.captured = w.captured) :
    s'.latest = s.latest := by
  rw [latest, latest, hr]
  cases hd : s.renamed.head? with
  | none => rfl
  | some i =>
      obtain ⟨w, hi⟩ := hs.exists_writer (List.mem_of_mem_head? hd)
      obtain ⟨v, hv, hc⟩ := hw hi
      show (s'.writers i).map Writer.captured = (s.writers i).map Writer.captured
      rw [hi, hv, Option.map_some, Option.map_some, hc]

/-- A step that renames nothing and leaves the state file as it is. -/
theorem frame (hs : Durable codec path content₀ s) (hr : s'.renamed = s.renamed)
    (hcontent : s'.fs.content path = s.fs.content path)
    (hw : ∀ {i w}, s.writers i = some w → ∃ v, s'.writers i = some v ∧ v.captured = w.captured)
    (htracks : ∀ {i w pc}, s'.writers i = some w → w.pc = .writing pc →
      Tracks path (w.call codec) s'.fs pc)
    (hmem : ∀ {i w}, s'.writers i = some w → (i ∈ s.renamed ↔ w.pc.persisted = true)) :
    Durable codec path content₀ s' := by
  refine ⟨htracks, fun hi ↦ ?_, fun hi ↦ ?_, ?_, ?_⟩
  · rw [hr]
    exact hmem hi
  · rw [hr] at hi
    obtain ⟨w, hi⟩ := hs.exists_writer hi
    obtain ⟨v, hv, -⟩ := hw hi
    exact ⟨v, hv⟩
  · rw [hr]
    exact hs.sorted
  · rw [hcontent, hs.content, hs.latest_eq hr hw]

/-- A step in which a writer renames its file, the last one of those that did. -/
theorem rename {i : Nat} {w' : Writer F} (hs : Durable codec path content₀ s)
    (hlast : ∀ j ∈ s.renamed, j < i) (hr : s'.renamed = i :: s.renamed)
    (hwriters : s'.writers = Function.update s.writers i (some w'))
    (hpersisted : w'.pc.persisted = true)
    (hcontent : s'.fs.content path = some (stateImage codec w'.captured))
    (htracks : ∀ {j u pc}, s'.writers j = some u → u.pc = .writing pc →
      Tracks path (u.call codec) s'.fs pc) : Durable codec path content₀ s' := by
  refine ⟨htracks, fun {j u} hj ↦ ?_, fun {j} hj ↦ ?_, ?_, ?_⟩
  · rw [hwriters] at hj
    rw [hr]
    rcases Lts.update_eq_some hj with ⟨rfl, rfl⟩ | ⟨hne, hj⟩
    · exact iff_of_true List.mem_cons_self hpersisted
    · rw [List.mem_cons, or_iff_right hne]
      exact hs.mem hj
  · rw [hr] at hj
    rw [hwriters]
    by_cases hne : j = i
    · exact ⟨w', by rw [hne, Function.update_self]⟩
    · obtain ⟨u, hu⟩ := hs.exists_writer ((List.mem_cons.mp hj).resolve_left hne)
      exact ⟨u, by rw [Function.update_of_ne hne, hu]⟩
  · rw [hr]
    exact List.pairwise_cons.mpr ⟨hlast, hs.sorted⟩
  · rw [hcontent, latest, hr, hwriters]
    simp

/-- A writer that is done with its file goes on. -/
theorem advance {i : Nat} {pc : WriterPc} (hs : Durable codec path content₀ s)
    (hi : s.writers i = some w)
    (hw : s'.writers = Function.update s.writers i (some { w with pc := pc }))
    (hr : s'.renamed = s.renamed) (hfs : s'.fs = s.fs) (hpc : ∀ pc', pc ≠ .writing pc')
    (hp : pc.persisted = w.pc.persisted) : Durable codec path content₀ s' := by
  refine hs.frame hr (by rw [hfs]) ?_ ?_ ?_
  · intro j u hj
    rw [hw]
    by_cases hji : j = i
    · subst hji
      obtain rfl := Option.some.inj (hi.symm.trans hj)
      exact ⟨_, Function.update_self .., rfl⟩
    · exact ⟨u, Lts.update_eq_some_of_ne hji hj, rfl⟩
  · intro j u pc' hj hu
    rw [hw] at hj
    rcases Lts.update_eq_some hj with ⟨rfl, rfl⟩ | ⟨-, hj⟩
    · exact absurd hu (hpc pc')
    · rw [hfs]
      exact hs.tracks hj hu
  · intro j u hj
    rw [hw] at hj
    rcases Lts.update_eq_some hj with ⟨rfl, rfl⟩ | ⟨-, hj⟩
    · rw [hs.mem hi, hp]
    · exact hs.mem hj

/-- A new writer has done nothing yet. -/
theorem spawn (hs : Durable codec path content₀ s) (hx : Exclusion s) :
    Durable codec path content₀ s.spawn := by
  refine hs.frame rfl rfl ?_ ?_ ?_
  · intro j u hj
    exact ⟨u, Lts.update_eq_some_of_ne (Nat.ne_of_lt (hx.lt hj)) hj, rfl⟩
  · intro j u pc hj hu
    rcases Lts.update_eq_some hj with ⟨rfl, rfl⟩ | ⟨-, hj⟩
    · -- a new call knows nothing of its temporary file yet
      change (if s.hasConfigDirectory then WriterPc.writing .opening else .clearing false) =
        .writing pc at hu
      split at hu
      · obtain rfl := WriterPc.writing.inj hu
        trivial
      · cases hu
    · exact hs.tracks hj hu
  · intro j u hj
    rcases Lts.update_eq_some hj with ⟨rfl, rfl⟩ | ⟨-, hj⟩
    · constructor
      · intro hm
        obtain ⟨w, hw⟩ := hs.exists_writer hm
        exact absurd (hx.lt hw) (Nat.lt_irrefl _)
      · intro hp
        change (if s.hasConfigDirectory then WriterPc.writing .opening
          else .clearing false).persisted = true at hp
        split at hp <;> cases hp
    · exact hs.mem hj

section Write

variable {i : Nat} {pc pc' : WritePc} {fs' : FileSystem String} {ℓ : WriteLabel}

/-- A writer that works at its file has not renamed it. -/
theorem notMem_renamed (hs : Durable codec path content₀ s) (hi : s.writers i = some w)
    (hpc : w.pc = .writing pc) (hstep : WriteStep path (w.call codec) s.fs pc ℓ fs' pc') :
    i ∉ s.renamed := by
  intro hm
  have hp := (hs.mem hi).mp hm
  rw [hpc, persisted_writing_of_not_finished hstep.not_finished] at hp
  cases hp

/-- And no other writer is at its file. -/
theorem tracks_write (hs : Durable codec path content₀ s) (hx : Exclusion s)
    (hi : s.writers i = some w) (hpc : w.pc = .writing pc)
    (hstep : WriteStep path (w.call codec) s.fs pc ℓ fs' pc') {j : Nat} {u : Writer F}
    {pc'' : WritePc}
    (hj : Function.update s.writers i (some { w with pc := .writing pc' }) j = some u)
    (hu : u.pc = .writing pc'') : Tracks path (u.call codec) fs' pc'' := by
  rcases Lts.update_eq_some hj with ⟨rfl, rfl⟩ | ⟨hne, hj⟩
  · obtain rfl := WriterPc.writing.inj hu
    exact hstep.tracks (hs.tracks hi hpc)
  · have hactive : w.pc.Active := by rw [hpc]; trivial
    have hu' : u.pc.Active := by rw [hu]; trivial
    exact absurd (hx.eq_of_active hj hi hu' hactive) hne

/-- The writer that renames is the last one spawned. -/
theorem renamed_lt (hs : Durable codec path content₀ s) (hx : Exclusion s)
    (hi : s.writers i = some w) (hactive : w.pc.Active) (hnot : i ∉ s.renamed) :
    ∀ j ∈ s.renamed, j < i := by
  intro j hj
  obtain ⟨u, hu⟩ := hs.exists_writer hj
  have hlt := hx.lt hu
  have hlast := (hx.active hi hactive).2.1
  have hne : j ≠ i := fun he ↦ hnot (he ▸ hj)
  omega

end Write

end Durable

theorem Step.durable (h : Step o codec path s a s') (hx : Exclusion s)
    (hs : Durable codec path content₀ s) : Durable codec path content₀ s' := by
  have hsame : ∀ {i w}, s.writers i = some w →
      ∃ v, s'.writers i = some v ∧ v.captured = w.captured := by
    intro i w hi
    obtain ⟨v, hv, he, -⟩ := h.writer_forward (hx.lt hi) hi
    exact ⟨v, hv, by rw [he]⟩
  cases h with
  | tick | skip _ _ | exchange _ _ _ | tryDequeue _ | dequeued _ _ _ _ _ _ | drained _ | touch
  | windowResized => exact hs.frame rfl rfl hsame hs.tracks hs.mem
  | elsewhere fs' hpath htemp =>
      refine hs.frame rfl hpath.content hsame ?_ hs.mem
      intro i w pc hi hpc
      exact (hs.tracks hi hpc).frame (htemp _)
  | spawn hpc => exact hs.spawn hx
  | write i w pc pc' fs' ℓ hi hpc hstep =>
      have ht := hs.tracks hi hpc
      have hnot := hs.notMem_renamed hi hpc hstep
      cases ℓ with
      | internal =>
          refine hs.frame rfl ?_ hsame (hs.tracks_write hx hi hpc hstep) ?_
          · exact (hstep.content_path ht).trans (if_neg nofun)
          · intro j u hj
            rcases Lts.update_eq_some hj with ⟨rfl, rfl⟩ | ⟨-, hj⟩
            · apply iff_of_false hnot
              intro hp
              obtain ⟨n, rfl⟩ := eq_ok_of_persisted_writing hp
              cases hstep.eq_renamed_of_ok.1
            · exact hs.mem hj
      | renamed =>
          obtain ⟨-, hcontent, rfl⟩ := hstep.renamed_spec ht
          have hactive : w.pc.Active := by rw [hpc]; trivial
          refine hs.rename (hs.renamed_lt hx hi hactive hnot) rfl rfl rfl ?_
            (hs.tracks_write hx hi hpc hstep)
          show fs'.content path = _
          rw [hcontent, image_call]
  | written i w r hi hpc =>
      refine hs.advance hi rfl rfl rfl (by rintro pc' ⟨⟩) ?_
      rw [hpc]
      cases r with
      | ok n => rfl
      | error e => rfl
  | clear i w b hi hpc | post i w b hi hpc =>
      refine hs.advance hi rfl rfl rfl (by rintro pc' ⟨⟩) ?_
      rw [hpc]
      rfl

end KonativeAndroidApp

end Konative.App
