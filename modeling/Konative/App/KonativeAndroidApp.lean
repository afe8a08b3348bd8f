import Konative.App.Systems
import Konative.Ecs.SnapshotArchive
import Konative.Ecs.SnapshotWrite
import Konative.Lib.Lts

/-!
# A running process of the application

The frame thread calls `Application::tick` again and again, and `on_tick` spawns a
detached thread for every snapshot.  The two sides share three things: the flag
`snapshot_in_flight_`, the queue of `SnapshotSavedEvent`s, and the file system.  A
step below is one access to one of them, or a stretch of the frame thread's work
that touches none; the steps of all the threads interleave in any order.

`snapshot_queue_` is a concurrent queue of another library, of which is used what
its documentation promises: an element enqueued is dequeued once, elements of
different threads come out in any order, and `try_dequeue` answers that there is
none only when the queue was empty at some time during the call.

The fields `ticks`, `renamed` and `Writer.atTick` are history; no step looks at them.
-/

namespace Konative.App

open Ecs Entt FileSystem

variable {F : Type}

/-! ## Configuration -/

/-- `AppConfig`. -/
structure AppConfig where
  tickLogInterval : Int32 := 120
  snapshotIntervalTicks : Int32 := 300
deriving DecidableEq, Repr

/-- `kMinSnapshotIntervalTicks`. -/
def minSnapshotIntervalTicks : Int32 := 60

/-- `kMinTickLogInterval`. -/
def minTickLogInterval : Int32 := 10

/-- `std::max`. -/
def stdMax (a b : Int32) : Int32 := if a < b then b else a

/-- `clamp_to_valid`. -/
def AppConfig.clampToValid (config : AppConfig) : AppConfig where
  tickLogInterval := stdMax config.tickLogInterval minTickLogInterval
  snapshotIntervalTicks := stdMax config.snapshotIntervalTicks minSnapshotIntervalTicks

/-- `kConfigPollIntervalTicks`. -/
def configPollIntervalTicks : UInt64 := 120

/-! ## Snapshot writers -/

/-- `SnapshotSavedEvent`. -/
structure SnapshotSavedEvent where
  byteSize : Nat
  persistedToDisk : Bool
deriving DecidableEq, Repr

/-- An event and the writer that posted it. -/
structure Posted where
  writer : Nat
  event : SnapshotSavedEvent
deriving DecidableEq, Repr

/-- Where a writer thread is. -/
inductive WriterPc
  /-- Inside `write_snapshot_bytes_file`. -/
  | writing (pc : WritePc)
  /-- About to clear `snapshot_in_flight_`. -/
  | clearing (persisted : Bool)
  /-- About to post its event. -/
  | posting (persisted : Bool)
  | finished (persisted : Bool)

namespace WriterPc

/-- The thread has not cleared `snapshot_in_flight_` yet. -/
def Active : WriterPc → Prop
  | writing _ | clearing _ => True
  | posting _ | finished _ => False

/-- The thread's call has renamed its file into place. -/
def persisted : WriterPc → Bool
  | writing (.returned (.ok _)) => true
  | writing _ => false
  | clearing b | posting b | finished b => b

/-- The thread has run to completion. -/
def Finished : WriterPc → Prop
  | finished _ => True
  | writing _ | clearing _ | posting _ => False

end WriterPc

/-- A writer thread and what it was handed. -/
structure Writer (F : Type) where
  /-- The registry the bytes were captured from. -/
  captured : AppRegistry F
  unique : UInt64
  pc : WriterPc
  /-- How many ticks the process had seen. -/
  atTick : Nat

/-- The bytes a writer was handed. -/
def Writer.bytes (codec : Codec F) (w : Writer F) : Bytes :=
  snapshotBytes (AppComponent.codec codec) appStateComponents w.captured

/-- The call a writer makes, its path apart. -/
def Writer.call (codec : Codec F) (w : Writer F) : WriteCall :=
  ⟨w.bytes codec, w.unique.toNat, appStateVersion⟩

/-- The file with a registry's snapshot. -/
def stateImage (codec : Codec F) (r : AppRegistry F) : Bytes :=
  WriteCall.image
    ⟨snapshotBytes (AppComponent.codec codec) appStateComponents r, 0, appStateVersion⟩

/-- What a writer writes is the image of the registry it captured. -/
theorem image_call (codec : Codec F) (w : Writer F) :
    (w.call codec).image = stateImage codec w.captured := rfl

/-! ## The process -/

/-- Where the frame thread is in `tick`. -/
inductive TickPc
  /-- Between two ticks. -/
  | idle
  /-- In `on_tick`, before the snapshot block. -/
  | checking
  /-- The flag was taken; about to serialize the registry and to spawn. -/
  | capturing
  /-- In the loop of `drain_into`. -/
  | draining
  /-- In `try_dequeue`.  The queue was empty when the call began, or it was not. -/
  | dequeuing (wasEmpty : Bool)
deriving DecidableEq, Repr

/-- The state of a process. -/
structure KonativeAndroidApp (F : Type) where
  fs : FileSystem String
  registry : AppRegistry F
  config : AppConfig
  /-- `config_directory_` is not empty, and with it `config_file_` and `state_file_path_`. -/
  hasConfigDirectory : Bool
  followerEntity : Option Entity
  followerHasUserTarget : Bool
  tickCount : UInt64
  snapshotInFlight : Bool
  snapshotQueue : List Posted
  /-- The dispatcher's queue, flushed by `update`. -/
  enqueued : List Posted
  /-- The calls of `on_snapshot_saved`. -/
  saved : List Posted
  writers : Nat → Option (Writer F)
  /-- How many writers were spawned. -/
  spawned : Nat
  pc : TickPc
  ticks : Nat
  /-- The writers whose rename succeeded, the latest first. -/
  renamed : List Nat

namespace KonativeAndroidApp

/-- A process that has not ticked. -/
def fresh (fs : FileSystem String) (registry : AppRegistry F) (config : AppConfig)
    (hasConfigDirectory : Bool) (followerEntity : Option Entity) (followerHasUserTarget : Bool) :
    KonativeAndroidApp F where
  fs := fs
  registry := registry
  config := config
  hasConfigDirectory := hasConfigDirectory
  followerEntity := followerEntity
  followerHasUserTarget := followerHasUserTarget
  tickCount := 0
  snapshotInFlight := false
  snapshotQueue := []
  enqueued := []
  saved := []
  writers _ := none
  spawned := 0
  pc := .idle
  ticks := 0
  renamed := []

/-! ### The frame thread -/

/-- `World::tick`: the systems, then the dispatcher's `update`. -/
def worldTick (o : FloatOps F) (deltaSeconds : F) (s : KonativeAndroidApp F) :
    KonativeAndroidApp F :=
  { s with
    registry := runSystems o deltaSeconds s.registry
    saved := s.saved ++ s.enqueued
    enqueued := [] }

/-- The poll of the config file, and what it found: a new content that parsed, or
none. -/
def pollConfig (reload : Option AppConfig) (s : KonativeAndroidApp F) : KonativeAndroidApp F :=
  { s with
    config :=
      if s.hasConfigDirectory && s.tickCount % configPollIntervalTicks = 0 then
        reload.elim s.config AppConfig.clampToValid
      else s.config }

/-- `Application::tick` up to the snapshot block of `on_tick`. -/
def beginTick (o : FloatOps F) (deltaSeconds : F) (reload : Option AppConfig)
    (s : KonativeAndroidApp F) : KonativeAndroidApp F :=
  let s := s.worldTick o deltaSeconds
  pollConfig reload { s with tickCount := s.tickCount + 1, ticks := s.ticks + 1, pc := .checking }

/-- `tick_count_ % static_cast<std::uint64_t>(app_config.snapshot_interval_ticks) == 0`. -/
def due (s : KonativeAndroidApp F) : Bool :=
  s.tickCount % s.config.snapshotIntervalTicks.toInt64.toUInt64 = 0

/-- Serialize the registry and spawn the writer.  With no path there is nothing to
write. -/
def spawn (s : KonativeAndroidApp F) : KonativeAndroidApp F :=
  { s with
    writers := Function.update s.writers s.spawned (some
      { captured := s.registry
        unique := s.tickCount
        pc := if s.hasConfigDirectory then .writing .opening else .clearing false
        atTick := s.ticks })
    spawned := s.spawned + 1
    pc := .draining }

/-- The registry with the follower aimed, once there is a follower. -/
def aimed (target : Vec3 F) (s : KonativeAndroidApp F) : AppRegistry F :=
  s.followerEntity.elim s.registry fun e ↦ setTarget e target s.registry

/-- `aim_follower_at`, for `TouchDownEvent` and `TouchMoveEvent`. -/
def aimFollowerAt (o : FloatOps F) (x y : F) (s : KonativeAndroidApp F) : KonativeAndroidApp F :=
  { s with
    registry := s.aimed ⟨x, y, o.ofInt 0⟩
    followerHasUserTarget := s.followerHasUserTarget ||
      s.followerEntity.any fun e ↦ s.registry.Valid e ∧ s.registry.Has .pointerFollow e }

/-- `on_window_resized`: the middle of the window, until there is a user's target. -/
def onWindowResized (o : FloatOps F) (width height : Int32) (s : KonativeAndroidApp F) :
    KonativeAndroidApp F :=
  { s with
    registry :=
      if s.followerHasUserTarget then s.registry
      else s.aimed ⟨o.div (o.ofInt width.toInt) (o.ofInt 2),
        o.div (o.ofInt height.toInt) (o.ofInt 2), o.ofInt 0⟩ }

/-! ### Steps -/

/-- Who takes a step. -/
inductive Action
  /-- The frame thread begins a tick. -/
  | tick
  /-- The frame thread goes on with `on_tick`. -/
  | onTick
  /-- The frame thread delivers an input event between two ticks. -/
  | input
  | writer (i : Nat)
  /-- Something changes files that are not the state file's. -/
  | elsewhere
deriving DecidableEq

/-- One step of a process whose state file is `path`. -/
inductive Step (o : FloatOps F) (codec : Codec F) (path : String) :
    KonativeAndroidApp F → Action → KonativeAndroidApp F → Prop
  | tick (s : KonativeAndroidApp F) (dt : F) (reload : Option AppConfig) (hpc : s.pc = .idle) :
      Step o codec path s .tick (s.beginTick o dt reload)
  | skip (s : KonativeAndroidApp F) (hpc : s.pc = .checking)
      (h : s.due = false ∨ s.snapshotInFlight = true) :
      Step o codec path s .onTick { s with pc := .draining }
  | exchange (s : KonativeAndroidApp F) (hpc : s.pc = .checking) (hdue : s.due = true)
      (hfree : s.snapshotInFlight = false) :
      Step o codec path s .onTick { s with snapshotInFlight := true, pc := .capturing }
  | spawn (s : KonativeAndroidApp F) (hpc : s.pc = .capturing) :
      Step o codec path s .onTick s.spawn
  | tryDequeue (s : KonativeAndroidApp F) (hpc : s.pc = .draining) :
      Step o codec path s .onTick { s with pc := .dequeuing s.snapshotQueue.isEmpty }
  | dequeued (s : KonativeAndroidApp F) (b : Bool) (m : Posted) (q₁ q₂ : List Posted)
      (hpc : s.pc = .dequeuing b) (hq : s.snapshotQueue = q₁ ++ m :: q₂) :
      Step o codec path s .onTick
        { s with snapshotQueue := q₁ ++ q₂, enqueued := s.enqueued ++ [m], pc := .draining }
  | drained (s : KonativeAndroidApp F) (hpc : s.pc = .dequeuing true) :
      Step o codec path s .onTick { s with pc := .idle }
  | touch (s : KonativeAndroidApp F) (x y : F) (hpc : s.pc = .idle) :
      Step o codec path s .input (s.aimFollowerAt o x y)
  | windowResized (s : KonativeAndroidApp F) (width height : Int32) (hpc : s.pc = .idle) :
      Step o codec path s .input (s.onWindowResized o width height)
  | write (s : KonativeAndroidApp F) (i : Nat) (w : Writer F) (pc pc' : WritePc)
      (fs' : FileSystem String) (ℓ : WriteLabel) (hi : s.writers i = some w)
      (hpc : w.pc = .writing pc) (hstep : WriteStep path (w.call codec) s.fs pc ℓ fs' pc') :
      Step o codec path s (.writer i)
        { s with
          fs := fs'
          writers := Function.update s.writers i (some { w with pc := .writing pc' })
          renamed := if ℓ = .renamed then i :: s.renamed else s.renamed }
  | written (s : KonativeAndroidApp F) (i : Nat) (w : Writer F)
      (r : Except SnapshotFileError Nat) (hi : s.writers i = some w)
      (hpc : w.pc = .writing (.returned r)) :
      Step o codec path s (.writer i)
        { s with writers := Function.update s.writers i (some { w with pc := .clearing r.isOk }) }
  | clear (s : KonativeAndroidApp F) (i : Nat) (w : Writer F) (b : Bool)
      (hi : s.writers i = some w) (hpc : w.pc = .clearing b) :
      Step o codec path s (.writer i)
        { s with
          snapshotInFlight := false
          writers := Function.update s.writers i (some { w with pc := .posting b }) }
  | post (s : KonativeAndroidApp F) (i : Nat) (w : Writer F) (b : Bool)
      (hi : s.writers i = some w) (hpc : w.pc = .posting b) :
      Step o codec path s (.writer i)
        { s with
          snapshotQueue := s.snapshotQueue ++ [⟨i, (w.bytes codec).length, b⟩]
          writers := Function.update s.writers i (some { w with pc := .finished b }) }
  | elsewhere (s : KonativeAndroidApp F) (fs' : FileSystem String)
      (hpath : SameFile s.fs fs' path) (htemp : ∀ u, SameFile s.fs fs' (tempPath path u)) :
      Step o codec path s .elsewhere { s with fs := fs' }

/-- A process from when `on_started` has returned. -/
def system (o : FloatOps F) (codec : Codec F) (path : String) :
    Lts (KonativeAndroidApp F) Action where
  init s := ∃ fs registry config hasConfigDirectory follower target,
    s = fresh fs registry (AppConfig.clampToValid config) hasConfigDirectory follower target
  step := Step o codec path

end KonativeAndroidApp

end Konative.App
