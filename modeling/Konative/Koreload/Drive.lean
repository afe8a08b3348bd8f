import Konative.Koreload.HotReload

/-!
# Who drives the follower

In the host with KoReload two parties write targets: touches and resizes, by
`aim_follower_at`, and `waypoint_cycler`, which `pointer_follow` calls before it moves the
followers.  As long as `waypoint_cycler` is live the targets it writes are in place when the
followers move, and what a touch wrote is never seen.  Without it the host is the one of the
default build, with `move_followers_toward_targets` for its second system (`driven_by`).

A reload of either module changes neither.  The first system of both builds,
`increment_heartbeat_counters`, writes nothing that either party reads.
-/

namespace Konative.Koreload

open App Entt

variable {F : Type}

/-! ## Turns -/

/-- What happens while no module comes or goes. -/
inductive Turn (F : Type)
  /-- A tick of the world: its two systems. -/
  | tick (deltaSeconds : F)
  | reload (name : Host.Name)
  /-- `aim_follower_at`, by a touch or a resize. -/
  | aim (e : Entity) (target : Vec3 F)

namespace Turn

/-- As events of the host. -/
def events : Turn F → List (Host.Event F)
  | tick deltaSeconds => [.other incrementHeartbeatCounters, .tick deltaSeconds]
  | reload name => [.reload name]
  | aim e target => [.other (setTarget e target)]

/-- The turn is a tick. -/
def isTick : Turn F → Bool
  | tick _ => true
  | reload _ | aim .. => false

/-- What it does to the registry of the default build. -/
def default (o : FloatOps F) : Turn F → AppRegistry F → AppRegistry F
  | tick deltaSeconds => runSystems o deltaSeconds
  | reload _ => id
  | aim e target => setTarget e target

end Turn

namespace Host

variable {o : FloatOps F} {toSize : F → UInt64} {codec : Codec F} {h h' k : Host F}
  {w : List (Turn F)} {out : List (Seen F)}

/-- The host, taking turns. -/
def turns (o : FloatOps F) (toSize : F → UInt64) (codec : Codec F) :
    Machine (Host F) (Turn F) (Seen F) where
  step h t := (machine o toSize codec).run t.events h

theorem run_turns (o : FloatOps F) (toSize : F → UInt64) (codec : Codec F) (w : List (Turn F))
    (h : Host F) :
    (turns o toSize codec).run w h = (machine o toSize codec).run (w.flatMap Turn.events) h := by
  induction w generalizing h with
  | nil => rfl
  | cons t w ih =>
      rw [List.flatMap_cons, Machine.run_append]
      show ((machine o toSize codec).run t.events h).bind _ = _
      congr 1
      funext x
      rw [ih]

/-- A tick of the world. -/
def worldTick (o : FloatOps F) (toSize : F → UInt64) (deltaSeconds : F) (h : Host F) : Host F :=
  ({ h with registry := incrementHeartbeatCounters h.registry } : Host F).tick o toSize deltaSeconds

theorem step_tick (dt : F) :
    (turns o toSize codec).step h (.tick dt) =
      some (h.worldTick o toSize dt, [(h.worldTick o toSize dt).seen]) := rfl

theorem step_aim (e : Entity) (target : Vec3 F) :
    (turns o toSize codec).step h (.aim e target) =
      some ({ h with registry := setTarget e target h.registry }, []) := rfl

/-- What a reload does to the host as a whole. -/
theorem step_reload {name : Name}
    (hstep : (turns o toSize codec).step h (.reload name) = some (h', out)) :
    out = [] ∧ Same h' h := by
  obtain ⟨h₁, out₁, out₂, h₁', h₂', rfl⟩ := Machine.run_cons_eq_some hstep
  obtain ⟨rfl, rfl⟩ := Prod.mk.inj (Option.some.inj h₂')
  obtain ⟨rfl, hsame⟩ := hides_reload.hide (e := .reload name) rfl (⟨rfl, rfl, rfl⟩ : Same h h) h₁'
  exact ⟨rfl, hsame⟩

/-! ## With `waypoint_cycler` -/

/-- A follower without its target. -/
def rates (r : AppRegistry F) : List (Entity × F) :=
  (r.pool .pointerFollow).map fun x ↦ (x.1, x.2.approachRate)

theorem rates_setTarget (e : Entity) (target : Vec3 F) (r : AppRegistry F) :
    rates (setTarget e target r) = rates r := by
  unfold setTarget
  split
  · rw [rates, rates, Registry.patch_pool_self, Pool.patch, List.map_map]
    apply List.map_congr_left
    intro x _
    show (x.1, PointerFollow.approachRate (if x.1 = e then _ else _)) = _
    split <;> rfl
  · rfl

theorem transform_setTarget (e : Entity) (target : Vec3 F) (r : AppRegistry F) :
    (setTarget e target r).pool .transform = r.pool .transform := by
  unfold setTarget
  split
  · exact Registry.patch_pool_of_ne (by decide)
  · rfl

theorem rates_incrementHeartbeatCounters (r : AppRegistry F) :
    rates (incrementHeartbeatCounters r) = rates r := by
  rw [rates, incrementHeartbeatCounters, Registry.patch_pool_of_ne (by decide), rates]

theorem transform_incrementHeartbeatCounters (r : AppRegistry F) :
    (incrementHeartbeatCounters r).pool .transform = r.pool .transform :=
  Registry.patch_pool_of_ne (by decide)

/-- The same but for the targets, with both modules live. -/
structure SameButTargets (h k : Host F) : Prop where
  transform : h.registry.pool .transform = k.registry.pool .transform
  rates : rates h.registry = rates k.registry
  pointerFollow : h.pointerFollow.live = k.pointerFollow.live
  waypointCycler : h.waypointCycler.live = k.waypointCycler.live
  pointerFollow_isSome : k.pointerFollow.live.isSome = true
  waypointCycler_isSome : k.waypointCycler.live.isSome = true

/-- Where every follower is given one target, it does not matter which it had. -/
theorem patch_eq_of_rates {r r' : AppRegistry F} (h : rates r = rates r') (target : Vec3 F) :
    (r.pool .pointerFollow).patch (fun _ follow ↦ { follow with target }) =
      (r'.pool .pointerFollow).patch fun _ follow ↦ { follow with target } := by
  have hmap (r : AppRegistry F) :
      (r.pool .pointerFollow).patch (fun _ follow ↦ { follow with target }) =
        (rates r).map fun x ↦ (x.1, ⟨target, x.2⟩) := by
    rw [rates, List.map_map]
    rfl
  rw [hmap, hmap, h]

variable (o toSize)

theorem driveTargets_pointerFollow {r r' : AppRegistry F} (h : rates r = rates r') (dt : F)
    (state : WaypointCyclerState F) :
    (driveTargets o toSize dt state r).2.pool .pointerFollow =
      (driveTargets o toSize dt state r').2.pool .pointerFollow := by
  refine (Registry.patch_pool_self ..).trans (Eq.trans ?_ (Registry.patch_pool_self ..).symm)
  exact patch_eq_of_rates h _

theorem driveTargets_transform (dt : F) (state : WaypointCyclerState F) (r : AppRegistry F) :
    (driveTargets o toSize dt state r).2.pool .transform = r.pool .transform :=
  Registry.patch_pool_of_ne (by decide)

/-- The followers look at the targets and at where they are. -/
theorem moveFollowersTowardTargets_pools {r r' : AppRegistry F}
    (htransform : r.pool .transform = r'.pool .transform)
    (hfollow : r.pool .pointerFollow = r'.pool .pointerFollow) (dt : F) :
    (moveFollowersTowardTargets o dt r).pool .transform =
        (moveFollowersTowardTargets o dt r').pool .transform ∧
      (moveFollowersTowardTargets o dt r).pool .pointerFollow =
        (moveFollowersTowardTargets o dt r').pool .pointerFollow := by
  constructor
  · rw [moveFollowersTowardTargets, moveFollowersTowardTargets, Registry.patch_pool_self,
      Registry.patch_pool_self, htransform, hfollow]
  · rw [moveFollowersTowardTargets, moveFollowersTowardTargets,
      Registry.patch_pool_of_ne (by decide), Registry.patch_pool_of_ne (by decide), hfollow]

/-- A tick of both modules. -/
theorem tick_both {state : WaypointCyclerState F} (hp : h.pointerFollow.live.isSome = true)
    (hw : h.waypointCycler.live = some state) (dt : F) :
    (h.tick o toSize dt).registry =
        moveFollowersTowardTargets o dt (driveTargets o toSize dt state h.registry).2 ∧
      (h.tick o toSize dt).pointerFollow.live = h.pointerFollow.live.map (·.advance 1) ∧
      (h.tick o toSize dt).waypointCycler.live =
        some (driveTargets o toSize dt state h.registry).1 := by
  rw [tick, if_pos hp, tickThunk, hw]
  refine ⟨rfl, Slot.live_modify _ _, ?_⟩
  show (h.waypointCycler.modify _).live = _
  rw [Slot.live_modify, hw]
  rfl

variable {o toSize}

/-- The counters are nothing that either party looks at. -/
theorem SameButTargets.counted (hk : SameButTargets h k) :
    SameButTargets { h with registry := incrementHeartbeatCounters h.registry }
      { k with registry := incrementHeartbeatCounters k.registry } := by
  refine ⟨?_, ?_, hk.pointerFollow, hk.waypointCycler, hk.pointerFollow_isSome,
    hk.waypointCycler_isSome⟩
  · show (incrementHeartbeatCounters h.registry).pool _ =
      (incrementHeartbeatCounters k.registry).pool _
    rw [transform_incrementHeartbeatCounters, transform_incrementHeartbeatCounters, hk.transform]
  · show Host.rates (incrementHeartbeatCounters h.registry) =
      Host.rates (incrementHeartbeatCounters k.registry)
    rw [rates_incrementHeartbeatCounters, rates_incrementHeartbeatCounters, hk.rates]

/-- What was written to the targets is overwritten before it is looked at. -/
theorem SameButTargets.tick (o : FloatOps F) (toSize : F → UInt64) (hk : SameButTargets h k)
    (dt : F) :
    SameButTargets (h.tick o toSize dt) (k.tick o toSize dt) ∧
      (h.tick o toSize dt).seen = (k.tick o toSize dt).seen := by
  obtain ⟨state, hstate⟩ := Option.isSome_iff_exists.mp hk.waypointCycler_isSome
  have hp : h.pointerFollow.live.isSome = true := hk.pointerFollow ▸ hk.pointerFollow_isSome
  obtain ⟨hr, hpf, hwc⟩ := tick_both o toSize hp (hk.waypointCycler.trans hstate) dt
  obtain ⟨hr', hpf', hwc'⟩ := tick_both o toSize hk.pointerFollow_isSome hstate dt
  have hfollow := driveTargets_pointerFollow o toSize hk.rates dt state
  have htransform : (driveTargets o toSize dt state h.registry).2.pool .transform =
      (driveTargets o toSize dt state k.registry).2.pool .transform := by
    rw [driveTargets_transform, driveTargets_transform, hk.transform]
  obtain ⟨htransform', hfollow'⟩ := moveFollowersTowardTargets_pools o htransform hfollow dt
  rw [← hr, ← hr'] at htransform' hfollow'
  refine ⟨⟨htransform', ?_, ?_, ?_, ?_, ?_⟩, ?_⟩
  · exact congrArg (List.map fun x ↦ (x.1, x.2.approachRate)) hfollow'
  · rw [hpf, hpf', hk.pointerFollow]
  · rw [hwc, hwc']
    rfl
  · rw [hpf', Option.isSome_map, hk.pointerFollow_isSome]
  · rw [hwc']
    rfl
  · rw [seen, targets, positions, htransform', hfollow', hpf, hk.pointerFollow, ← hpf']
    rfl

theorem hides_turns :
    (turns o toSize codec).Hides (fun t ↦ !t.isTick) SameButTargets where
  hide {h h' k t out} ht hk hstep := by
    cases t with
    | tick => cases ht
    | aim e target =>
        rw [step_aim] at hstep
        obtain ⟨rfl, rfl⟩ := Prod.mk.inj (Option.some.inj hstep)
        refine ⟨rfl, ?_, ?_, hk.pointerFollow, hk.waypointCycler, hk.pointerFollow_isSome,
          hk.waypointCycler_isSome⟩
        · exact (transform_setTarget e target h.registry).trans hk.transform
        · exact (rates_setTarget e target h.registry).trans hk.rates
    | reload name =>
        obtain ⟨rfl, hsame⟩ := step_reload hstep
        refine ⟨rfl, ?_, ?_, hsame.pointerFollow.trans hk.pointerFollow,
          hsame.waypointCycler.trans hk.waypointCycler, hk.pointerFollow_isSome,
          hk.waypointCycler_isSome⟩
        · rw [hsame.registry, hk.transform]
        · rw [hsame.registry, hk.rates]
  keep {h h' k t out} ht hk hstep := by
    cases t with
    | aim | reload => cases ht
    | tick dt =>
        rw [step_tick] at hstep
        obtain ⟨rfl, rfl⟩ := Prod.mk.inj (Option.some.inj hstep)
        obtain ⟨hsame, hseen⟩ := hk.counted.tick o toSize dt
        exact ⟨_, congrArg (fun s ↦ some (_, [s])) hseen.symm, hsame⟩

/-! ## Without it -/

/-- A tick of `pointer_follow` alone. -/
theorem tick_alone (o : FloatOps F) (toSize : F → UInt64)
    (hp : h.pointerFollow.live.isSome = true) (hw : h.waypointCycler.live = none) (dt : F) :
    (h.tick o toSize dt).registry = moveFollowersTowardTargets o dt h.registry ∧
      (h.tick o toSize dt).pointerFollow.live = h.pointerFollow.live.map (·.advance 1) ∧
      (h.tick o toSize dt).waypointCycler.live = none := by
  rw [tick, if_pos hp, tickThunk, hw]
  exact ⟨rfl, Slot.live_modify _ _, hw⟩

/-- A turn without `waypoint_cycler` is one of the default build. -/
theorem step_alone {t : Turn F} (hp : h.pointerFollow.live.isSome = true)
    (hw : h.waypointCycler.live = none) (hstep : (turns o toSize codec).step h t = some (h', out)) :
    h'.registry = t.default o h.registry ∧ h'.pointerFollow.live.isSome = true ∧
      h'.waypointCycler.live = none := by
  cases t with
  | tick dt =>
      rw [step_tick] at hstep
      obtain ⟨rfl, -⟩ := Prod.mk.inj (Option.some.inj hstep)
      obtain ⟨hr, hpf, hwc⟩ := tick_alone o toSize
        (h := { h with registry := incrementHeartbeatCounters h.registry }) hp hw dt
      exact ⟨hr, (congrArg Option.isSome hpf).trans (by rw [Option.isSome_map, hp]), hwc⟩
  | aim e target =>
      rw [step_aim] at hstep
      obtain ⟨rfl, -⟩ := Prod.mk.inj (Option.some.inj hstep)
      exact ⟨rfl, hp, hw⟩
  | reload name =>
      obtain ⟨-, hsame⟩ := step_reload hstep
      exact ⟨hsame.registry, by rw [hsame.pointerFollow, hp], hsame.waypointCycler.trans hw⟩

theorem run_alone (hp : h.pointerFollow.live.isSome = true) (hw : h.waypointCycler.live = none)
    (hrun : (turns o toSize codec).run w h = some (h', out)) :
    h'.registry = w.foldl (fun r t ↦ t.default o r) h.registry := by
  induction w generalizing h out with
  | nil =>
      obtain ⟨rfl, -⟩ := Prod.mk.inj (Option.some.inj hrun)
      rfl
  | cons t w ih =>
      obtain ⟨h₁, out₁, out₂, h₁', h₂', -⟩ := Machine.run_cons_eq_some hrun
      obtain ⟨hr, hp₁, hw₁⟩ := step_alone hp hw h₁'
      rw [ih hp₁ hw₁ h₂', hr]
      rfl

/-- While no module comes or goes, one party drives the follower.  If `waypoint_cycler` is
live, touches and resizes cannot be seen, and neither can reloads: what is seen at the
ticks is what would be seen if there were ticks alone.  If it is not, the registry is what
the default build makes of the same ticks, touches and resizes. -/
theorem driven_by (o : FloatOps F) (toSize : F → UInt64) (codec : Codec F)
    (hlive : h.pointerFollow.live.isSome = true)
    (hrun : (machine o toSize codec).run (w.flatMap Turn.events) h = some (h', out)) :
    (h.waypointCycler.live.isSome = true → ∃ k, (machine o toSize codec).run
        ((w.filter Turn.isTick).flatMap Turn.events) h = some (k, out)) ∧
      (h.waypointCycler.live = none →
        h'.registry = w.foldl (fun r t ↦ t.default o r) h.registry) := by
  rw [← run_turns] at hrun
  constructor
  · intro hw
    obtain ⟨k, hk, -⟩ := hides_turns.run
      (⟨rfl, rfl, rfl, rfl, hlive, hw⟩ : SameButTargets h h) hrun
    refine ⟨k, ?_⟩
    rw [run_turns] at hk
    simpa only [Bool.not_not] using hk
  · exact fun hw ↦ run_alone hlive hw hrun

/-- A touch and a reload between two ticks, and the two ticks alone. -/
theorem driven_by_waypoints :
    let M := machine { FloatOps.whole with exp := fun _ ↦ 0 } UInt32.toUInt64 Codec.u32
    ∃ h out k,
      M.run ([Turn.tick 1, .aim ⟨0, 0⟩ ⟨9, 9, 9⟩, .reload .waypointCycler,
        .tick 1].flatMap Turn.events) (follower ⟨0, 0⟩) = some (h, out) ∧
      out.map Seen.targets = [[(⟨0, 0⟩, ⟨3, 0, 0⟩)], [(⟨0, 0⟩, ⟨0, 3, 0⟩)]] ∧
      out.map Seen.positions = out.map Seen.targets ∧
      M.run ([Turn.tick 1, .tick 1].flatMap Turn.events) (follower ⟨0, 0⟩) = some (k, out) := by
  intro M
  obtain ⟨⟨h, out⟩, hrun⟩ : ∃ x, M.run ([Turn.tick 1, .aim ⟨0, 0⟩ ⟨9, 9, 9⟩,
    .reload .waypointCycler, .tick 1].flatMap Turn.events) (follower ⟨0, 0⟩) = some x := ⟨_, rfl⟩
  have hout := congrArg (Option.map Prod.snd) hrun
  obtain ⟨k, hk⟩ := (driven_by _ _ _ rfl hrun).1 rfl
  refine ⟨h, out, k, hrun, ?_, ?_, hk⟩
  all_goals
    obtain rfl := Option.some.inj hout
    rfl

end Host

end Konative.Koreload
