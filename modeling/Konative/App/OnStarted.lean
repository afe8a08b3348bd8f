import Konative.App.KonativeAndroidApp
import Konative.Ecs.SnapshotRead

/-!
# `on_started`

A process starts by restoring the registry from the state file, when there is one it
can use, and by creating what is missing: the heartbeat entities when nothing was
restored, and the follower when the registry has none.

Two starts matter.  Where there is no file the population is new, every counter at
zero; where the file is the snapshot of a population, the population is that one,
entity for entity and value for value.
-/

namespace Konative.App

open Ecs Entt FileSystem

namespace KonativeAndroidApp

variable {F : Type}

/-- What a process finds when it starts. -/
structure Launch where
  /-- `getFilesDir()` succeeded. -/
  hasConfigDirectory : Bool
  /-- `AppConfig` after `load_or_provision`. -/
  config : AppConfig
  /-- The directory of the state file, for the sweep. -/
  listing : List (String × Bool)
  /-- The `emplace` thunk of the reflected `HeartbeatCounter` can be called. -/
  reflected : Bool

section Create

variable (r : AppRegistry F)

/-- `registry.emplace_or_replace<HeartbeatCounter>(e)`. -/
def emplaceOrReplaceHeartbeat (e : Entity) : AppRegistry F :=
  if r.Has .heartbeatCounter e then
    r.patch .heartbeatCounter fun e' h ↦ if e' = e then .default else h
  else r.emplace .heartbeatCounter e .default

/-- Entity 0, through reflection or, where that fails, directly. -/
def createReflected (reflected : Bool) : Option (AppRegistry F) :=
  r.create.map fun x ↦
    if reflected then x.2.emplace .heartbeatCounter x.1 .default
    else emplaceOrReplaceHeartbeat x.2 x.1

end Create

/-- Entities `1` to `n`, directly. -/
def createHeartbeats : Nat → AppRegistry F → Option (AppRegistry F)
  | 0, r => some r
  | n + 1, r => r.create.bind fun x ↦
      createHeartbeats n (x.2.emplace .heartbeatCounter x.1 .default)

/-- The heartbeat entities of a process that restored nothing. -/
def createPopulation (reflected : Bool) (r : AppRegistry F) : Option (AppRegistry F) :=
  (createReflected r reflected).bind (createHeartbeats (heartbeatEntityCount - 1))

/-- Find the follower, or create it; and whether it was found. -/
def findOrCreateFollower (o : FloatOps F) (r : AppRegistry F) :
    Option (AppRegistry F × Entity × Bool) :=
  match r.viewFront .transform .pointerFollow with
  | some e => some (r, e, true)
  | none => r.create.map fun x ↦
      ((x.2.emplace .transform x.1 (.default o)).emplace .pointerFollow x.1 (.default o),
        x.1, false)

/-- The registry after the restore: the one read, or the one left by a read that
failed and the heartbeat entities created in it. -/
def restoreOrCreate (codec : Codec F) (reflected : Bool) (content : Option Bytes) :
    Option (AppRegistry F) :=
  match readSnapshotFile (AppComponent.codec codec) appStateComponents content appStateVersion
      (.empty : AppRegistry F) with
  | .returned (.ok _) r => some r
  | .returned (.error _) r => createPopulation reflected r
  | .undefined => none

/-- The registry of a process: without a directory there is no file to restore. -/
def startRegistry (codec : Codec F) (l : Launch) (content : Option Bytes) :
    Option (AppRegistry F) :=
  if l.hasConfigDirectory then restoreOrCreate codec l.reflected content
  else createPopulation l.reflected .empty

/-- The file system after the sweep, which there is with a directory only. -/
def sweep (path : String) (l : Launch) (fs : FileSystem String) : FileSystem String :=
  if l.hasConfigDirectory then cleanupOrphanedSnapshotTempFiles path l.listing fs else fs

/-- `on_started`, on the file system it finds.  There is no outcome where EnTT leaves
one undefined. -/
def onStarted (o : FloatOps F) (codec : Codec F) (path : String) (l : Launch)
    (fs : FileSystem String) : Option (KonativeAndroidApp F) :=
  let fs := sweep path l fs
  ((startRegistry codec l (fs.content path)).bind (findOrCreateFollower o)).map fun x ↦
    fresh fs x.1 l.config.clampToValid l.hasConfigDirectory (some x.2.1) x.2.2

variable {o : FloatOps F} {codec : Codec F} {path : String} {fs : FileSystem String}
  {r : AppRegistry F} {counters : Pool HeartbeatCounter} {follower : Entity}
  {transform : Transform F} {follow : PointerFollow F}

/-- The sweep does not touch the state file. -/
theorem content_sweep (path : String) (l : Launch) (fs : FileSystem String) :
    (sweep path l fs).content path = fs.content path := by
  unfold sweep
  split
  · exact content_cleanup path l.listing fs
  · rfl

/-- What `on_started` leaves: a process that has not ticked, with the registry it
started with and the state file it found. -/
theorem onStarted_eq_some {l : Launch} {s : KonativeAndroidApp F}
    (h : onStarted o codec path l fs = some s) :
    s.fs.content path = fs.content path ∧
      ∃ e b, s = fresh s.fs s.registry l.config.clampToValid l.hasConfigDirectory (some e) b := by
  obtain ⟨x, -, rfl⟩ := Option.map_eq_some_iff.mp h
  exact ⟨content_sweep path l fs, x.2.1, x.2.2, rfl⟩

/-- How `on_started` comes to its registry. -/
theorem onStarted_eq {l : Launch} {e : Entity} {b : Bool}
    (h : (startRegistry codec l (fs.content path)).bind (findOrCreateFollower o) =
      some (r, e, b)) :
    onStarted o codec path l fs = some (fresh (sweep path l fs) r l.config.clampToValid
      l.hasConfigDirectory (some e) b) := by
  rw [onStarted, content_sweep, h]
  rfl

/-! ## The first boot -/

/-- A registry that so far holds heartbeat entities only. -/
structure Growing (r : AppRegistry F) (n : Nat) (counters : Pool HeartbeatCounter) : Prop where
  sound : r.Sound
  dense : r.entities.Dense n
  counters_eq : r.pool .heartbeatCounter = counters
  transform_eq : r.pool .transform = []
  follow_eq : r.pool .pointerFollow = []
  live : r.live = counters.map Prod.fst

theorem growing_empty : Growing (.empty : AppRegistry F) 0 [] :=
  ⟨Registry.sound_empty, EntityStorage.dense_empty, rfl, rfl, rfl, rfl⟩

namespace Growing

variable {n : Nat}

/-- Creating one more heartbeat entity. -/
theorem emplace (h : Growing r n counters) {e : Entity} {r' : AppRegistry F}
    (hc : r.create = some (e, r')) (hd : r'.entities.Dense (n + 1)) :
    Growing (r'.emplace .heartbeatCounter e .default) (n + 1) (counters ++ [(e, .default)]) := by
  obtain ⟨-, hlive, hpool, hsound⟩ := Registry.create_eq_some h.sound hc
  have hvalid : r'.Valid e := by
    show e ∈ r'.live
    rw [hlive]
    exact List.mem_append_right _ List.mem_cons_self
  refine ⟨hsound.emplace hvalid (Registry.not_has_of_create h.sound hc _) _, hd, ?_, ?_, ?_, ?_⟩
  · rw [Registry.emplace_pool_self, hpool, h.counters_eq]
  · rw [Registry.emplace_pool_of_ne (by decide), hpool, h.transform_eq]
  · rw [Registry.emplace_pool_of_ne (by decide), hpool, h.follow_eq]
  · rw [List.map_append, ← h.live]
    exact hlive

/-- The loop creates as many as it is asked to, all at zero. -/
theorem exists_createHeartbeats (k : Nat) (h : Growing r n counters) (hk : n + k < 0xFFFFF) :
    ∃ r' new, createHeartbeats k r = some r' ∧ Growing r' (n + k) (counters ++ new) ∧
      new.length = k ∧ ∀ x ∈ new, x.2 = .default := by
  induction k generalizing r n counters with
  | zero => exact ⟨r, [], rfl, by rwa [List.append_nil], rfl, nofun⟩
  | succ k ih =>
      obtain ⟨e, r₁, hc, hd⟩ := Registry.exists_create h.dense (by omega)
      obtain ⟨r', new, hr', hg, hlen, hdefault⟩ := ih (h.emplace hc hd) (by omega)
      refine ⟨r', (e, .default) :: new, ?_, ?_, ?_, ?_⟩
      · rw [createHeartbeats, hc]
        exact hr'
      · rw [List.append_cons, ← Nat.add_assoc, Nat.add_right_comm]
        exact hg
      · rw [List.length_cons, hlen]
      · rintro x hx
        rcases List.mem_cons.mp hx with rfl | hx
        · rfl
        · exact hdefault x hx

/-- With the heartbeat entities there, the follower is created. -/
theorem exists_findOrCreateFollower (o : FloatOps F) (h : Growing r n counters)
    (hlen : counters.length = heartbeatEntityCount) (hn : n < 0xFFFFF) :
    ∃ r' e, findOrCreateFollower o r = some (r', e, false) ∧
      Populated r' counters e (.default o) (.default o) := by
  obtain ⟨e, r₁, hc, -⟩ := Registry.exists_create h.dense hn
  obtain ⟨-, hlive, hpool, hsound⟩ := Registry.create_eq_some h.sound hc
  have hfront : r.viewFront .transform .pointerFollow = none := by
    simp [Registry.viewFront, Registry.keys, h.transform_eq, h.follow_eq]
  have hvalid : r₁.Valid e := by
    show e ∈ r₁.live
    rw [hlive]
    exact List.mem_append_right _ List.mem_cons_self
  have hsound₁ := hsound.emplace hvalid (Registry.not_has_of_create h.sound hc .transform)
    (Transform.default o)
  have hnot : ¬ (r₁.emplace .transform e (.default o)).Has .pointerFollow e := by
    rw [Registry.Has, Registry.emplace_pool_of_ne (by decide)]
    exact Registry.not_has_of_create h.sound hc .pointerFollow
  refine ⟨_, e, ?_, hsound₁.emplace hvalid hnot (PointerFollow.default o), ?_, hlen, ?_, ?_, ?_⟩
  · rw [findOrCreateFollower, hfront, hc]
    rfl
  · rw [Registry.emplace_pool_of_ne (by decide), Registry.emplace_pool_of_ne (by decide), hpool,
      h.counters_eq]
  · rw [Registry.emplace_pool_of_ne (by decide), Registry.emplace_pool_self, hpool,
      h.transform_eq]
    rfl
  · rw [Registry.emplace_pool_self, Registry.emplace_pool_of_ne (by decide), hpool, h.follow_eq]
    rfl
  · rw [← h.live, ← hlive]
    exact .refl _

end Growing

/-- An empty registry gets a new population, whether reflection works or not. -/
theorem exists_createPopulation (o : FloatOps F) (reflected : Bool) :
    ∃ (r : AppRegistry F) (counters : Pool HeartbeatCounter) (e : Entity),
      (createPopulation reflected .empty).bind (findOrCreateFollower o) = some (r, e, false) ∧
      Populated r counters e (.default o) (.default o) ∧ ∀ x ∈ counters, x.2 = .default := by
  obtain ⟨e, r₁, hc, hd⟩ := Registry.exists_create (growing_empty (F := F)).dense (by decide)
  have hfirst : createReflected .empty reflected =
      some (r₁.emplace .heartbeatCounter e .default) := by
    rw [createReflected, hc]
    cases reflected with
    | true => rfl
    | false => exact congrArg some (if_neg (Registry.not_has_of_create growing_empty.sound hc _))
  obtain ⟨r₂, new, hr₂, hg, hlen, hdefault⟩ :=
    (growing_empty.emplace hc hd).exists_createHeartbeats 2 (by decide)
  obtain ⟨r, follower, hr, hpop⟩ := hg.exists_findOrCreateFollower o
    (by rw [List.length_append, hlen]; rfl) (by decide)
  refine ⟨r, _, follower, ?_, hpop, ?_⟩
  · rw [createPopulation, hfirst]
    show (createHeartbeats 2 _).bind _ = _
    rw [hr₂]
    exact hr
  · intro x hx
    rcases List.mem_append.mp hx with hx | hx
    · obtain rfl := List.mem_singleton.mp hx
      rfl
    · exact hdefault x hx

/-- Where there is no state file, the population is new. -/
theorem onStarted_of_none (o : FloatOps F) (codec : Codec F) (l : Launch)
    (h : fs.content path = none) :
    ∃ s counters e, onStarted o codec path l fs = some s ∧
      Populated s.registry counters e (.default o) (.default o) ∧
      ∀ x ∈ counters, x.2 = .default := by
  obtain ⟨r, counters, e, hr, hpop, hdefault⟩ := exists_createPopulation o l.reflected
  have hstart : startRegistry codec l (fs.content path) = createPopulation l.reflected .empty := by
    unfold startRegistry
    split
    · rw [h]
      rfl
    · rfl
  exact ⟨_, counters, e, onStarted_eq (by rw [hstart, hr]), hpop, hdefault⟩

/-! ## A boot from a snapshot -/

/-- The snapshot of a population is restored as it was. -/
theorem restoreOrCreate_snapshot (h : Populated r counters follower transform follow)
    (codec : Codec F) (reflected : Bool) :
    ∃ r', restoreOrCreate codec reflected (some (stateImage codec r)) = some r' ∧
      Populated r' counters follower transform follow := by
  obtain ⟨r', hsound, hlive, hpool, (hread : readArchive (AppComponent.codec codec) _ _ _ = _)⟩ :=
    readArchive_own h.sound nodup_appStateComponents vacant_empty
  have hpool' : ∀ i, r'.pool i = r.pool i := fun i ↦ by
    rw [hpool, if_pos (mem_appStateComponents i)]
  refine ⟨r', ?_, hsound, ?_, h.length, ?_, ?_, ?_⟩
  · rw [restoreOrCreate, stateImage, readSnapshotFile_image ⟨_, 0, appStateVersion⟩, hread]
  · rw [hpool', h.counters_eq]
  · rw [hpool', h.transform_eq]
  · rw [hpool', h.follow_eq]
  · rw [hlive]
    exact h.live

/-- Where the state file is the snapshot of a population and can be opened, the
process starts with that population. -/
theorem onStarted_of_snapshot (o : FloatOps F) (l : Launch)
    (hpop : Populated r counters follower transform follow)
    (hopen : l.hasConfigDirectory = true) (h : fs.content path = some (stateImage codec r)) :
    ∃ s, onStarted o codec path l fs = some s ∧
      Populated s.registry counters follower transform follow := by
  obtain ⟨r', hr', hpop'⟩ := restoreOrCreate_snapshot hpop codec l.reflected
  have hfollower : findOrCreateFollower o r' = some (r', follower, true) := by
    rw [findOrCreateFollower, hpop'.viewFront]
  have hstart : startRegistry codec l (fs.content path) = some r' := by
    rw [startRegistry, if_pos hopen, h, hr']
  exact ⟨_, onStarted_eq (by rw [hstart]; exact hfollower), hpop'⟩

end KonativeAndroidApp

end Konative.App
