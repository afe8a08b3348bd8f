import Konative.Koreload.HotReload
import Konative.Lib.Layout

/-!
# `save_state` and `restore_state`

Both modules keep one value in their globals and give it to cereal's binary archive, which
copies bytes between a stream and the object.  `restore_state` decodes into the live object:
what was copied before the archive threw stays there, and what is behind the value in the
buffer is never looked at.

So a saved image is restored, but a refusal changes the state unless the bytes that were
there begin with those of the buffer, and a buffer that is too long is accepted.
-/

namespace Konative.Koreload

open App

universe u

/-! ## The hooks -/

/-- `save_state` and `restore_state`, the latter with what it returns and the state it
leaves. -/
structure StateHooks (S : Type u) where
  saveState : S → Bytes
  restoreState : S → Bytes → Bool × S

/-- `BinaryInputArchive::loadBinary`: as many bytes as there are go into the object, and
then it is checked that there were enough. -/
def loadBinary {S : Type u} (l : Layout S) (object : S) (stream : Bytes) : Bool × S :=
  let read := stream.take l.width
  (read.length = l.width, l.overwrite object read)

/-- A module whose state is one object in an archive.  Where the archive throws,
`restore_state` returns `false`. -/
def StateHooks.ofLayout {S : Type u} (l : Layout S) : StateHooks S where
  saveState := l.bytes
  restoreState := loadBinary l

theorem heartbeatCounter_mk_ticks (c : HeartbeatCounter) : HeartbeatCounter.mk c.ticks = c := rfl

theorem heartbeatCounter_ticks_mk (n : UInt64) : (HeartbeatCounter.mk n).ticks = n := rfl

theorem waypointCyclerState_mk_elapsedSeconds {F : Type} (s : WaypointCyclerState F) :
    WaypointCyclerState.mk s.elapsedSeconds = s := rfl

theorem waypointCyclerState_elapsedSeconds_mk {F : Type} (t : F) :
    (WaypointCyclerState.mk t).elapsedSeconds = t := rfl

/-- `serialize(archive, counter)`. -/
def heartbeatCounterLayout : Layout HeartbeatCounter :=
  Layout.u64.map HeartbeatCounter.mk HeartbeatCounter.ticks heartbeatCounter_mk_ticks
    heartbeatCounter_ticks_mk

/-- The elapsed seconds. -/
def waypointCyclerLayout {F : Type} (float : Layout F) : Layout (WaypointCyclerState F) :=
  float.map WaypointCyclerState.mk WaypointCyclerState.elapsedSeconds
    waypointCyclerState_mk_elapsedSeconds waypointCyclerState_elapsedSeconds_mk

/-- The hooks of `pointer_follow`, whose state is `reload_survival_ticks`. -/
def pointerFollowHooks : StateHooks HeartbeatCounter := .ofLayout heartbeatCounterLayout

/-- The hooks of `waypoint_cycler`. -/
def waypointCyclerHooks {F : Type} (float : Layout F) : StateHooks (WaypointCyclerState F) :=
  .ofLayout (waypointCyclerLayout float)

/-! ## What a restore does -/

section Restore

variable {S : Type u} (l : Layout S)

/-- A buffer that is long enough gives the state in its first bytes. -/
theorem loadBinary_of_le {object : S} {stream : Bytes} (h : l.width ≤ stream.length) :
    loadBinary l object stream = (true, l.ofBytes (stream.take l.width)) := by
  have hlen : (stream.take l.width).length = l.width := List.length_take_of_le h
  have hnil : (l.bytes object).drop l.width = [] :=
    List.drop_eq_nil_of_le (Nat.le_of_eq (l.length_bytes object))
  rw [loadBinary, hlen, Layout.overwrite, hlen, hnil, List.append_nil, decide_eq_true rfl]

/-- A buffer that is too short is refused once it has been copied. -/
theorem loadBinary_of_lt {object : S} {stream : Bytes} (h : stream.length < l.width) :
    loadBinary l object stream = (false, l.overwrite object stream) := by
  rw [loadBinary, List.take_of_length_le (Nat.le_of_lt h),
    decide_eq_false (Nat.ne_of_lt h)]

/-- A reload sees of the hooks whether the restore succeeded and, if so, the state: the
contract is the hooks as they are called. -/
theorem ofCodec_restoreState {S : Type} (l : Layout S) (initial object : S) (data : Bytes) :
    (PluginContract.ofCodec initial l.codec).restoreState object data =
      if ((StateHooks.ofLayout l).restoreState object data).1 then
        some ((StateHooks.ofLayout l).restoreState object data).2
      else none := by
  change ((Codec.takeBytes l.width data).map fun p ↦ (l.ofBytes p.1, p.2)).map Prod.fst =
    if (loadBinary l object data).1 then some (loadBinary l object data).2 else none
  unfold Codec.takeBytes
  by_cases h : data.length < l.width
  · rw [if_pos h, loadBinary_of_lt l h]
    rfl
  · rw [if_neg h, loadBinary_of_le l (Nat.le_of_not_lt h)]
    rfl

end Restore

/-- The two ways to the codec of a counter. -/
theorem dec_heartbeatCounter (data : Bytes) :
    HeartbeatCounter.codec.dec data = heartbeatCounterLayout.codec.dec data := by
  change (((Codec.takeBytes 8 data).map _).map _) = (Codec.takeBytes 8 data).map _
  rw [Option.map_map]
  rfl

/-- What a reload sees of `pointer_follow`. -/
theorem pointerFollow_restoreState (object : HeartbeatCounter) (data : Bytes) :
    pointerFollow.restoreState object data =
      if (pointerFollowHooks.restoreState object data).1 then
        some (pointerFollowHooks.restoreState object data).2
      else none := by
  rw [pointerFollowHooks, ← ofCodec_restoreState heartbeatCounterLayout .default]
  change (HeartbeatCounter.codec.dec data).map Prod.fst = _
  rw [dec_heartbeatCounter]
  rfl

/-- What a reload sees of `waypoint_cycler`. -/
theorem waypointCycler_restoreState {F : Type} (o : FloatOps F) (float : Layout F)
    (object : WaypointCyclerState F) (data : Bytes) :
    (waypointCycler o float.codec).restoreState object data =
      if ((waypointCyclerHooks float).restoreState object data).1 then
        some ((waypointCyclerHooks float).restoreState object data).2
      else none := by
  rw [waypointCyclerHooks, ← ofCodec_restoreState (waypointCyclerLayout float) ⟨o.ofInt 0⟩]
  change (((Codec.takeBytes float.width data).map _).map _).map _ =
    ((Codec.takeBytes float.width data).map _).map _
  simp only [Option.map_map]
  rfl

/-! ## Saved images, and everything else -/

/-- Whatever was saved is restored, whatever the state was before. -/
def StateHooks.RestoresSaved {S : Type u} (h : StateHooks S) : Prop :=
  ∀ s object, h.restoreState object (h.saveState s) = (true, s)

/-- A call of `restore_state` accepts a buffer of the right length only, and when it
refuses one it has changed nothing. -/
structure StateHooks.Exact {S : Type u} (h : StateHooks S) (object : S) (data : Bytes) : Prop where
  length : (h.restoreState object data).1 = true → data.length = (h.saveState object).length
  unchanged : (h.restoreState object data).1 = false → (h.restoreState object data).2 = object

theorem restoresSaved_ofLayout {S : Type u} (l : Layout S) :
    (StateHooks.ofLayout l).RestoresSaved := by
  intro s object
  change loadBinary l object (l.bytes s) = (true, s)
  have hlen := l.length_bytes s
  rw [loadBinary_of_le l (Nat.le_of_eq hlen.symm), ← hlen, List.take_length, l.ofBytes_bytes]

/-- Exactly when a restore is exact. -/
theorem exact_ofLayout_iff {S : Type u} (l : Layout S) (object : S) (data : Bytes) :
    (StateHooks.ofLayout l).Exact object data ↔
      data.length = l.width ∨ data <+: l.bytes object := by
  have hsave : ((StateHooks.ofLayout l).saveState object).length = l.width := l.length_bytes object
  by_cases h : data.length < l.width
  · have hload : (StateHooks.ofLayout l).restoreState object data =
        (false, l.overwrite object data) := loadBinary_of_lt l h
    constructor
    · intro hexact
      have hsame := hexact.unchanged (by rw [hload])
      rw [hload] at hsame
      exact .inr ((l.overwrite_eq_self_iff (Nat.le_of_lt h)).mp hsame)
    · rintro (hlen | hprefix)
      · omega
      · refine ⟨fun ht ↦ ?_, fun _ ↦ ?_⟩
        · rw [hload] at ht
          cases ht
        · rw [hload]
          exact (l.overwrite_eq_self_iff (Nat.le_of_lt h)).mpr hprefix
  · have hload : (StateHooks.ofLayout l).restoreState object data =
        (true, l.ofBytes (data.take l.width)) := loadBinary_of_le l (Nat.le_of_not_lt h)
    constructor
    · intro hexact
      exact .inl ((hexact.length (by rw [hload])).trans hsave)
    · intro hdata
      refine ⟨fun _ ↦ ?_, fun hf ↦ ?_⟩
      · rw [hsave]
        rcases hdata with hlen | hprefix
        · exact hlen
        · have hle := hprefix.length_le
          rw [l.length_bytes] at hle
          omega
      · rw [hload] at hf
        cases hf

/-- Both modules restore what they saved.  A restore of any buffer into any state is exact
if and only if the buffer has the length of the payload or is a prefix of the bytes the
state consists of already. -/
theorem restore_state_exact_iff {F : Type} (float : Layout F) :
    (pointerFollowHooks.RestoresSaved ∧ ∀ object data, pointerFollowHooks.Exact object data ↔
      data.length = 8 ∨ data <+: Layout.u64.bytes object.ticks) ∧
    ((waypointCyclerHooks float).RestoresSaved ∧ ∀ object data,
      (waypointCyclerHooks float).Exact object data ↔
        data.length = float.width ∨ data <+: float.bytes object.elapsedSeconds) :=
  ⟨⟨restoresSaved_ofLayout _, exact_ofLayout_iff heartbeatCounterLayout⟩,
    restoresSaved_ofLayout _, exact_ofLayout_iff (waypointCyclerLayout float)⟩

/-- One byte restored into a counter at zero is refused and has changed it to one; a
counter with a byte more behind it is accepted. -/
theorem restore_state_not_exact :
    pointerFollowHooks.restoreState ⟨0⟩ [1] = (false, ⟨1⟩) ∧
      ¬ pointerFollowHooks.Exact ⟨0⟩ [1] ∧
      ¬ pointerFollowHooks.Exact ⟨0⟩ [7, 0, 0, 0, 0, 0, 0, 0, 0] ∧
      ¬ (waypointCyclerHooks Layout.u32).Exact ⟨0⟩ [1] := by
  have hshort : pointerFollowHooks.restoreState ⟨0⟩ [1] = (false, ⟨1⟩) := rfl
  refine ⟨hshort, fun h ↦ ?_, fun h ↦ ?_, fun h ↦ ?_⟩
  · have := h.unchanged (by rw [hshort])
    rw [hshort] at this
    exact absurd this (by decide)
  · exact absurd (h.length rfl) (by decide)
  · exact absurd (h.unchanged rfl) (by decide)

end Konative.Koreload
