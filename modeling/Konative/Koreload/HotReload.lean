import Konative.App.Systems
import Konative.Lib.Machine

/-!
# Hot reload of the two modules

With KoReload the follower is moved by two modules the host can reload while it runs:
`pointer_follow`, whose `tick_thunk` is the host's one system, and `waypoint_cycler`,
which the former calls into.  Each has one piece of state in its globals.  A reload
saves it from the old generation, loads a fresh one, restores it there and repoints
the host's handle.

KoReload itself is another library; of it is used the order of these calls.  The
globals of every generation stay where they are, and the handle says which one is
live.  `float` arithmetic and the cast to `std::size_t` are parameters.
-/

namespace Konative.Koreload

open App Entt

variable {F : Type}

/-! ## Modules -/

/-- `koreload::PluginContract`, with the state a fresh generation has. -/
structure PluginContract (S : Type) where
  initial : S
  saveState : S → Bytes
  /-- `restore_state` into an instance; `none` is a `false`. -/
  restoreState : S → Bytes → Option S

/-- A module whose state is one value in a cereal archive. -/
def PluginContract.ofCodec {S : Type} (initial : S) (codec : Codec S) : PluginContract S where
  initial := initial
  saveState := codec.enc
  restoreState _ data := (codec.dec data).map Prod.fst

/-- `koreload::ManagedModuleSlot`: the globals of every generation loaded so far, and
the generation the host's handle points to. -/
structure Slot (S : Type) where
  generations : List S
  handle : Option Nat

namespace Slot

variable {S : Type}

/-- The state of the generation that is live. -/
def live (slot : Slot S) : Option S := slot.handle.bind fun g ↦ slot.generations[g]?

/-- A new generation with this state, and the handle repointed to it. -/
def repoint (slot : Slot S) (state : S) : Slot S :=
  ⟨slot.generations ++ [state], some slot.generations.length⟩

/-- Load a generation when there is none to take state from. -/
def load (contract : PluginContract S) (slot : Slot S) : Slot S := slot.repoint contract.initial

/-- Drop the handle. -/
def unload (slot : Slot S) : Slot S := { slot with handle := none }

/-- A reload: save, load, restore, repoint. -/
def reload (contract : PluginContract S) (slot : Slot S) : Option (Slot S) :=
  slot.live.bind fun old ↦
    (contract.restoreState contract.initial (contract.saveState old)).map slot.repoint

/-- Code of the live generation changes its globals. -/
def modify (slot : Slot S) (f : S → S) : Slot S :=
  match slot.handle with
  | none => slot
  | some g => { slot with generations := slot.generations.modify g f }

theorem live_repoint (slot : Slot S) (state : S) : (slot.repoint state).live = some state := by
  simp [live, repoint]

theorem live_modify (slot : Slot S) (f : S → S) : (slot.modify f).live = slot.live.map f := by
  obtain ⟨generations, handle⟩ := slot
  cases handle with
  | none => rfl
  | some g => simp [live, modify, List.getElem?_modify]

/-- A reload keeps the state that is live. -/
theorem live_reload {initial : S} {codec : Codec S} {slot slot' : Slot S}
    (h : slot.reload (.ofCodec initial codec) = some slot') : slot'.live = slot.live := by
  obtain ⟨old, hold, h⟩ := Option.bind_eq_some_iff.mp h
  have hrestore : (PluginContract.ofCodec initial codec).restoreState initial
      (codec.enc old) = some old := by
    have hdec := codec.dec_enc old []
    rw [List.append_nil] at hdec
    show (codec.dec (codec.enc old)).map Prod.fst = some old
    rw [hdec]
    rfl
  obtain ⟨restored, hr, rfl⟩ := Option.map_eq_some_iff.mp h
  obtain rfl := Option.some.inj (hr.symm.trans hrestore)
  rw [live_repoint, hold]

end Slot

/-! ## The two modules -/

/-- `WaypointCyclerState`. -/
structure WaypointCyclerState (F : Type) where
  elapsedSeconds : F
deriving DecidableEq, Repr

/-- The contract of `waypoint_cycler`. -/
def waypointCycler (o : FloatOps F) (codec : Codec F) : PluginContract (WaypointCyclerState F) :=
  .ofCodec ⟨o.ofInt 0⟩ (codec.map WaypointCyclerState.mk WaypointCyclerState.elapsedSeconds
    fun _ ↦ rfl)

/-- The contract of `pointer_follow`, whose state is `reload_survival_ticks`. -/
def pointerFollow : PluginContract HeartbeatCounter := .ofCodec .default HeartbeatCounter.codec

/-- `kWaypoints`. -/
def waypoints (o : FloatOps F) : Fin 4 → Vec3 F
  | 0 => ⟨o.ofInt 3, o.ofInt 0, o.ofInt 0⟩
  | 1 => ⟨o.ofInt 0, o.ofInt 3, o.ofInt 0⟩
  | 2 => ⟨o.ofInt (-3), o.ofInt 0, o.ofInt 0⟩
  | 3 => ⟨o.ofInt 0, o.ofInt (-3), o.ofInt 0⟩

/-- `drive_targets`; `toSize` is `static_cast<std::size_t>`. -/
def driveTargets (o : FloatOps F) (toSize : F → UInt64) (deltaSeconds : F)
    (state : WaypointCyclerState F) (r : AppRegistry F) :
    WaypointCyclerState F × AppRegistry F :=
  let elapsedSeconds := o.add state.elapsedSeconds deltaSeconds
  let index := (toSize (o.div elapsedSeconds (o.ofInt 2))).toNat % 4
  let target := waypoints o ⟨index, Nat.mod_lt _ (by decide)⟩
  (⟨elapsedSeconds⟩, r.patch .pointerFollow fun _ follow ↦ { follow with target })

/-! ## The host -/

/-- The host's registry and its two slots. -/
structure Host (F : Type) where
  registry : AppRegistry F
  pointerFollow : Slot HeartbeatCounter
  waypointCycler : Slot (WaypointCyclerState F)

namespace Host

/-- `tick_thunk` of the live `pointer_follow`. -/
def tickThunk (o : FloatOps F) (toSize : F → UInt64) (deltaSeconds : F) (h : Host F) : Host F :=
  let driven : Host F :=
    match h.waypointCycler.live with
    | none => h
    | some state =>
        let x := driveTargets o toSize deltaSeconds state h.registry
        { h with waypointCycler := h.waypointCycler.modify fun _ ↦ x.1, registry := x.2 }
  { driven with
    registry := moveFollowersTowardTargets o deltaSeconds driven.registry
    pointerFollow := driven.pointerFollow.modify fun c ↦ c.advance 1 }

/-- The system the host registers: nothing without `pointer_follow`. -/
def tick (o : FloatOps F) (toSize : F → UInt64) (deltaSeconds : F) (h : Host F) : Host F :=
  if h.pointerFollow.live.isSome then h.tickThunk o toSize deltaSeconds else h

/-- What can be seen after a tick. -/
structure Seen (F : Type) where
  targets : List (Entity × Vec3 F)
  positions : List (Entity × Vec3 F)
  reloadSurvivalTicks : Option UInt64

/-- The target of every `PointerFollow`. -/
def targets (h : Host F) : List (Entity × Vec3 F) :=
  (h.registry.pool .pointerFollow).map fun x ↦ (x.1, x.2.target)

/-- The position of every `Transform`. -/
def positions (h : Host F) : List (Entity × Vec3 F) :=
  (h.registry.pool .transform).map fun x ↦ (x.1, x.2.position)

/-- Look at the host. -/
def seen (h : Host F) : Seen F :=
  ⟨h.targets, h.positions, h.pointerFollow.live.map HeartbeatCounter.ticks⟩

/-- The modules. -/
inductive Name
  | pointerFollow
  | waypointCycler
deriving DecidableEq, Repr

/-- What can happen to the host. -/
inductive Event (F : Type)
  | tick (deltaSeconds : F)
  | reload (name : Name)
  /-- A module without a live generation gets one, or one with loses it. -/
  | load (name : Name)
  | unload (name : Name)
  /-- Anything else the host does to its registry. -/
  | other (f : AppRegistry F → AppRegistry F)

/-- The event is a reload. -/
def Event.isReload : Event F → Bool
  | .reload _ => true
  | .tick _ | .load _ | .unload _ | .other _ => false

/-- The host as a machine that is looked at after every tick. -/
def machine (o : FloatOps F) (toSize : F → UInt64) (codec : Codec F) :
    Machine (Host F) (Event F) (Seen F) where
  step h
    | .tick dt => some (h.tick o toSize dt, [(h.tick o toSize dt).seen])
    | .reload .pointerFollow =>
        (h.pointerFollow.reload Koreload.pointerFollow).map fun slot ↦
          ({ h with pointerFollow := slot }, [])
    | .reload .waypointCycler =>
        (h.waypointCycler.reload (Koreload.waypointCycler o codec)).map fun slot ↦
          ({ h with waypointCycler := slot }, [])
    | .load .pointerFollow =>
        some ({ h with pointerFollow := h.pointerFollow.load Koreload.pointerFollow }, [])
    | .load .waypointCycler =>
        some ({ h with
          waypointCycler := h.waypointCycler.load (Koreload.waypointCycler o codec) }, [])
    | .unload .pointerFollow => some ({ h with pointerFollow := h.pointerFollow.unload }, [])
    | .unload .waypointCycler => some ({ h with waypointCycler := h.waypointCycler.unload }, [])
    | .other f => some ({ h with registry := f h.registry }, [])

/-! ## Reloads cannot be seen -/

/-- The same registry, and the same state live in each slot. -/
structure Same (h k : Host F) : Prop where
  registry : h.registry = k.registry
  pointerFollow : h.pointerFollow.live = k.pointerFollow.live
  waypointCycler : h.waypointCycler.live = k.waypointCycler.live

variable {o : FloatOps F} {toSize : F → UInt64} {codec : Codec F} {h k : Host F}

theorem Same.seen (hk : Same h k) : h.seen = k.seen := by
  rw [Host.seen, targets, positions, hk.registry, hk.pointerFollow]
  rfl

/-- A tick looks at nothing but the registry and the live states. -/
theorem Same.tick (hk : Same h k) (dt : F) : Same (h.tick o toSize dt) (k.tick o toSize dt) := by
  unfold Host.tick
  rw [hk.pointerFollow]
  split
  · unfold tickThunk
    rw [hk.waypointCycler, hk.registry]
    cases k.waypointCycler.live with
    | none =>
        refine ⟨?_, ?_, hk.waypointCycler⟩
        · simp only [hk.registry]
        · simp only [Slot.live_modify, hk.pointerFollow]
    | some state =>
        refine ⟨rfl, ?_, ?_⟩
        · simp only [Slot.live_modify, hk.pointerFollow]
        · simp only [Slot.live_modify, hk.waypointCycler]
  · exact hk

theorem hides_reload : (machine o toSize codec).Hides Event.isReload Same where
  hide {h h' k e out} he hk hstep := by
    cases e with
    | reload name =>
        cases name with
        | pointerFollow =>
            obtain ⟨slot, hslot, hstep⟩ := Option.map_eq_some_iff.mp hstep
            obtain ⟨rfl, rfl⟩ := Prod.mk.inj hstep
            exact ⟨rfl, hk.registry, (Slot.live_reload hslot).trans hk.pointerFollow,
              hk.waypointCycler⟩
        | waypointCycler =>
            obtain ⟨slot, hslot, hstep⟩ := Option.map_eq_some_iff.mp hstep
            obtain ⟨rfl, rfl⟩ := Prod.mk.inj hstep
            exact ⟨rfl, hk.registry, hk.pointerFollow,
              (Slot.live_reload hslot).trans hk.waypointCycler⟩
    | tick _ | load _ | unload _ | other _ => cases he
  keep {h h' k e out} he hk hstep := by
    cases e with
    | tick dt =>
        obtain ⟨rfl, rfl⟩ := Prod.mk.inj (Option.some.inj hstep)
        refine ⟨_, ?_, hk.tick dt⟩
        rw [(hk.tick dt).seen]
        rfl
    | reload _ => cases he
    | load name =>
        cases name with
        | pointerFollow =>
            obtain ⟨rfl, rfl⟩ := Prod.mk.inj (Option.some.inj hstep)
            exact ⟨_, rfl, hk.registry, by simp only [Slot.load, Slot.live_repoint],
              hk.waypointCycler⟩
        | waypointCycler =>
            obtain ⟨rfl, rfl⟩ := Prod.mk.inj (Option.some.inj hstep)
            exact ⟨_, rfl, hk.registry, hk.pointerFollow,
              by simp only [Slot.load, Slot.live_repoint]⟩
    | unload name =>
        cases name with
        | pointerFollow =>
            obtain ⟨rfl, rfl⟩ := Prod.mk.inj (Option.some.inj hstep)
            exact ⟨_, rfl, hk.registry, rfl, hk.waypointCycler⟩
        | waypointCycler =>
            obtain ⟨rfl, rfl⟩ := Prod.mk.inj (Option.some.inj hstep)
            exact ⟨_, rfl, hk.registry, hk.pointerFollow, rfl⟩
    | other f =>
        obtain ⟨rfl, rfl⟩ := Prod.mk.inj (Option.some.inj hstep)
        exact ⟨_, rfl, congrArg f hk.registry, hk.pointerFollow, hk.waypointCycler⟩

/-- Without `waypoint_cycler` a tick changes no target. -/
theorem targets_tick (hw : h.waypointCycler.live = none) (dt : F) :
    (h.tick o toSize dt).targets = h.targets := by
  unfold Host.tick
  split
  · have hpool : (h.tickThunk o toSize dt).registry.pool .pointerFollow =
        h.registry.pool .pointerFollow := by
      unfold tickThunk
      simp only [hw]
      exact Registry.patch_pool_of_ne (by decide)
    rw [targets, hpool, targets]
  · rfl

/-- A run is seen as the same run without its reloads, and a tick without
`waypoint_cycler` changes no target. -/
theorem reload_transparent (o : FloatOps F) (toSize : F → UInt64) (codec : Codec F)
    {w : List (Event F)} {h h' : Host F} {out : List (Seen F)}
    (hrun : (machine o toSize codec).run w h = some (h', out)) :
    (∃ k, (machine o toSize codec).run (w.filter fun e ↦ !e.isReload) h = some (k, out)) ∧
      ∀ (k : Host F) (dt : F), k.waypointCycler.live = none →
        (k.tick o toSize dt).targets = k.targets := by
  obtain ⟨k, hk, -⟩ := hides_reload.run (⟨rfl, rfl, rfl⟩ : Same h h) hrun
  exact ⟨⟨k, hk⟩, fun k dt hw ↦ targets_tick hw dt⟩

/-- A host with a follower and both modules. -/
def follower (e : Entity) : Host UInt32 where
  registry := ((.empty : AppRegistry UInt32).emplace .transform e
    (Transform.default .whole)).emplace .pointerFollow e (PointerFollow.default .whole)
  pointerFollow := ⟨[⟨0⟩], some 0⟩
  waypointCycler := ⟨[⟨0⟩], some 0⟩

/-- Each module is reloaded between two ticks.  The follower is at its target after each. -/
theorem reload_transparent_follower :
    let M := machine { FloatOps.whole with exp := fun _ ↦ 0 } UInt32.toUInt64 Codec.u32
    ∃ h out k,
      M.run [.tick 1, .reload .waypointCycler, .tick 1, .reload .pointerFollow, .tick 1]
        (follower ⟨0, 0⟩) = some (h, out) ∧
      out.map Seen.targets =
        [[(⟨0, 0⟩, ⟨3, 0, 0⟩)], [(⟨0, 0⟩, ⟨0, 3, 0⟩)], [(⟨0, 0⟩, ⟨0, 3, 0⟩)]] ∧
      out.map Seen.positions = out.map Seen.targets ∧
      out.map Seen.reloadSurvivalTicks = [some 1, some 2, some 3] ∧
      M.run [.tick 1, .tick 1, .tick 1] (follower ⟨0, 0⟩) = some (k, out) := by
  intro M
  obtain ⟨⟨h, out⟩, hrun⟩ : ∃ x, M.run
      [.tick 1, .reload .waypointCycler, .tick 1, .reload .pointerFollow, .tick 1]
      (follower ⟨0, 0⟩) = some x := ⟨_, rfl⟩
  have hout := congrArg (Option.map Prod.snd) hrun
  obtain ⟨k, hk⟩ := (reload_transparent _ _ _ hrun).1
  refine ⟨h, out, k, hrun, ?_, ?_, ?_, hk⟩
  all_goals
    obtain rfl := Option.some.inj hout
    rfl

end Host

end Konative.Koreload
