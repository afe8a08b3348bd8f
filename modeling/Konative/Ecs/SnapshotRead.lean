import Konative.App.Components
import Konative.Ecs.SnapshotArchive
import Konative.Ecs.SnapshotWrite

/-!
# Reading a snapshot file back

`read_snapshot_file` checks the header, loads the archive behind it, and clears the
registry when the archive throws.

The main result is the round trip: a registry built by any sequence of operations,
serialized and written by `write_snapshot_bytes_file`, is read back into an empty
registry with the same entities and the same components.
-/

universe u v

namespace Konative.Ecs

open Entt

variable {ι : Type u} {Val : ι → Type v}

/-- How a `read_snapshot_file` call ends: it returns, leaving the registry as given,
or EnTT does not define what it does. -/
inductive ReadOutcome (ι : Type u) (Val : ι → Type v)
  | returned (result : Except SnapshotFileError Nat) (r : Registry ι Val)
  | undefined

/-- `registry.clear()`, which iterates over the identifiers in use and is undefined
when their count is past the end of the array. -/
def clearRegistry (r : Registry ι Val) : Option (Registry ι Val) :=
  if r.entities.head ≤ r.entities.packed.length then some r.clear else none

section Read

variable [DecidableEq ι]

/-- The archive behind the header: load it, and clear the registry when it throws. -/
def readArchive (codec : ∀ i, Codec (Val i)) (cs : List ι) (r : Registry ι Val) (bs : Bytes) :
    ReadOutcome ι Val :=
  match loadSnapshot codec cs r bs with
  | .done r _ => .returned (.ok r.entities.head) r
  | .threw r =>
      match clearRegistry r with
      | some r => .returned (.error .archiveError) r
      | none => .undefined
  | .undefined => .undefined

/-- `read_snapshot_file<Components...>(registry, path, expected_version)`, where
`content` is what opening and reading `path` gives. -/
def readSnapshotFile (codec : ∀ i, Codec (Val i)) (cs : List ι) (content : Option Bytes)
    (expectedVersion : UInt32) (r : Registry ι Val) : ReadOutcome ι Val :=
  match content with
  | none => .returned (.error .openFailed) r
  | some bs =>
      match (Codec.u32.pair Codec.u32).dec bs with
      | none => .returned (.error .badHeader) r
      | some ((magic, version), payload) =>
          if magic ≠ snapshotFileMagic then .returned (.error .badHeader) r
          else if version ≠ expectedVersion then .returned (.error .versionMismatch) r
          else readArchive codec cs r payload

end Read

/-- A registry with no entity in use and no component: one just constructed, or one
just cleared. -/
structure Vacant (r : Registry ι Val) : Prop where
  entities : r.entities.Sound
  live : r.live = []
  pool : ∀ i, r.pool i = []

theorem vacant_empty : Vacant (Registry.empty : Registry ι Val) :=
  ⟨EntityStorage.sound_empty, rfl, fun _ ↦ rfl⟩

section Components

variable [DecidableEq ι] {codec : ∀ i, Codec (Val i)} {cs : List ι} {r : Registry ι Val}

/-- A complete file of the expected version is read as its payload. -/
theorem readSnapshotFile_image (c : WriteCall) :
    readSnapshotFile codec cs (some c.image) c.version r = readArchive codec cs r c.bytes := by
  have h : (Codec.u32.pair Codec.u32).dec c.image =
      some ((snapshotFileMagic, c.version), c.bytes) := by
    rw [WriteCall.image, ← List.append_assoc]
    exact (Codec.u32.pair Codec.u32).dec_enc (snapshotFileMagic, c.version) c.bytes
  rw [readSnapshotFile]
  simp [h]

/-- The snapshot of a sound registry, read where there is nothing, brings back its
entities and the components that were listed. -/
theorem readArchive_own {src : Registry ι Val} (hsrc : src.Sound) (hcs : cs.Nodup)
    (hr : Vacant r) :
    ∃ r' : Registry ι Val, r'.Sound ∧ r'.live = src.live ∧
      (∀ i, r'.pool i = if i ∈ cs then src.pool i else []) ∧
      readArchive codec cs r (snapshotBytes codec cs src) =
        .returned (.ok src.live.length) r' := by
  obtain ⟨s, hs, hlive, hload⟩ := loadSnapshot_own codec hsrc hcs hr.entities hr.live hr.pool []
  rw [List.append_nil] at hload
  refine ⟨⟨s, fun i ↦ if i ∈ cs then src.pool i else []⟩, ⟨hs, fun i ↦ ?_, fun i x hx ↦ ?_⟩,
    hlive, fun _ ↦ rfl, ?_⟩
  · by_cases hi : i ∈ cs
    · simpa only [if_pos hi] using hsrc.keyed i
    · simp only [if_neg hi, Pool.Keyed, List.map_nil, List.nodup_nil]
  · change x.1 ∈ s.live
    by_cases hi : i ∈ cs
    · rw [hlive]
      simp only [if_pos hi] at hx
      exact hsrc.live i x hx
    · simp only [if_neg hi] at hx
      cases hx
  · rw [readArchive, hload]
    simp only
    rw [← hs.length_live, hlive]

/-- The round trip.  Whatever operations built `src`, once a call that writes its
snapshot has returned `ok`, reading the file with the same version returns the
number of entities of `src`, and the registry read has the entities of `src`, each
with its version, and each with the components it had in `src`. -/
theorem snapshot_round_trip (codec : ∀ i, Codec (Val i)) (cs : List ι) (hcs : cs.Nodup)
    (src : Registry ι Val) (hsrc : Registry.system.Reachable src) (r : Registry ι Val)
    (hr : Vacant r) (path : String) (suffix : Nat) (version : UInt32)
    (fs fs' : FileSystem String) (w : List WriteLabel) (n : Nat)
    (hwrite : (writeSystem path ⟨snapshotBytes codec cs src, suffix, version⟩).Run
      (fs, .opening) w (fs', .returned (.ok n))) :
    ∃ r', readSnapshotFile codec cs (fs'.content path) version r =
        .returned (.ok src.live.length) r' ∧
      (∀ e, r'.Valid e ↔ src.Valid e) ∧
      ∀ i ∈ cs, ∀ e, (r'.pool i).get? e = (src.pool i).get? e := by
  obtain ⟨-, hcontent⟩ := content_of_run_ok hwrite
  obtain ⟨r', -, hlive, hpool, hread⟩ :=
    readArchive_own (r := r) (Registry.sound_of_reachable hsrc) hcs hr
  refine ⟨r', ?_, fun e ↦ ?_, fun i hi e ↦ ?_⟩
  · rw [hcontent, readSnapshotFile_image, hread]
  · change e ∈ r'.live ↔ e ∈ src.live
    rw [hlive]
  · rw [hpool, if_pos hi]

end Components

open App in
/-- The application's three components on a recycled slot: the entity created third
has the index of the one destroyed, and comes back with its own version. -/
theorem snapshot_round_trip_recycled :
    ∃ (src r' : Registry AppComponent (AppComponent.Value UInt32)) (fs : FileSystem String),
    src.Valid ⟨0, 1⟩ ∧ ¬ src.Valid ⟨0, 0⟩ ∧
      readSnapshotFile (AppComponent.codec Codec.u32) appStateComponents (fs.content "state.bin")
        appStateVersion .empty = .returned (.ok src.live.length) r' ∧
      (∀ e, r'.Valid e ↔ src.Valid e) ∧
      ∀ i ∈ appStateComponents, ∀ e, (r'.pool i).get? e = (src.pool i).get? e := by
  let os : List (Registry.Op AppComponent (AppComponent.Value UInt32)) :=
    [.create, .create, .destroy ⟨0, 0⟩, .create, .emplace .heartbeatCounter ⟨0, 1⟩ ⟨7⟩,
      .emplace .pointerFollow ⟨1, 0⟩ ⟨⟨1, 2, 3⟩, 8⟩]
  obtain ⟨src, hsrc⟩ : ∃ src, Registry.performAll os .empty = some src := ⟨_, rfl⟩
  have hvalid : src.live = [⟨1, 0⟩, ⟨0, 1⟩] := by cases hsrc; rfl
  obtain ⟨fs, w, hrun⟩ := exists_run_ok "state.bin"
    ⟨snapshotBytes (AppComponent.codec Codec.u32) appStateComponents src, 120, appStateVersion⟩
    .empty
  obtain ⟨r', hread, hlive, hpool⟩ := snapshot_round_trip (AppComponent.codec Codec.u32)
    appStateComponents nodup_appStateComponents src
    ⟨.empty, os, rfl, Registry.run_of_performAll hsrc⟩ .empty vacant_empty "state.bin" 120
    appStateVersion .empty fs w _ hrun
  refine ⟨src, r', fs, ?_, ?_, hread, hlive, hpool⟩
  · change (⟨0, 1⟩ : Entity) ∈ src.live
    rw [hvalid]; decide
  · change (⟨0, 0⟩ : Entity) ∉ src.live
    rw [hvalid]; decide

end Konative.Ecs
