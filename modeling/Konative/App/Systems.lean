import Konative.App.Components
import Konative.Entt.View

/-!
# The application's systems

The two systems `World::tick` runs every frame, `increment_heartbeat_counters` and
`move_followers_toward_targets`, and the two handlers that aim the follower.

None of them creates or destroys an entity or gives or takes a component: each one
writes through the references of a view, so what they do to a registry is a
`Registry.patch` of one component type.  The arithmetic on `float` is a parameter;
nothing below depends on what it computes.
-/

namespace Konative.App

open Entt

variable {F : Type}

/-- The application's registry. -/
abbrev AppRegistry (F : Type) := Registry AppComponent (AppComponent.Value F)

/-- The operations on `float` the systems use. -/
structure FloatOps (F : Type) where
  /-- A literal, or `static_cast<float>` of an integer. -/
  ofInt : Int → F
  le : F → F → Bool
  add : F → F → F
  sub : F → F → F
  mul : F → F → F
  div : F → F → F
  neg : F → F
  exp : F → F

/-- Whole numbers for floats, for runs in which no float is looked at. -/
def FloatOps.whole : FloatOps UInt32 where
  ofInt := UInt32.ofInt
  le a b := a ≤ b
  add := (· + ·)
  sub := (· - ·)
  mul := (· * ·)
  div := (· / ·)
  neg a := -a
  exp _ := 1

/-! ## Default values -/

/-- `Transform{}`: at the origin, not rotated, scale one. -/
def Transform.default (o : FloatOps F) : Transform F where
  position := ⟨o.ofInt 0, o.ofInt 0, o.ofInt 0⟩
  rotation := ⟨o.ofInt 1, o.ofInt 0, o.ofInt 0, o.ofInt 0⟩
  scale := ⟨o.ofInt 1, o.ofInt 1, o.ofInt 1⟩

/-- `PointerFollow{}`. -/
def PointerFollow.default (o : FloatOps F) : PointerFollow F where
  target := ⟨o.ofInt 0, o.ofInt 0, o.ofInt 0⟩
  approachRate := o.ofInt 8

/-- `HeartbeatCounter{}`. -/
def HeartbeatCounter.default : HeartbeatCounter := ⟨0⟩

/-! ## Systems -/

/-- The counter after `n` more ticks. -/
def HeartbeatCounter.advance (n : UInt64) (h : HeartbeatCounter) : HeartbeatCounter := ⟨h.ticks + n⟩

/-- `increment_heartbeat_counters`. -/
def incrementHeartbeatCounters (r : AppRegistry F) : AppRegistry F :=
  r.patch .heartbeatCounter fun _ h ↦ h.advance 1

/-- `glm::mix(x, y, a)`. -/
def Vec3.mix (o : FloatOps F) (x y : Vec3 F) (a : F) : Vec3 F :=
  let mix₁ (x y : F) : F := o.add (o.mul x (o.sub (o.ofInt 1) a)) (o.mul y a)
  ⟨mix₁ x.x y.x, mix₁ x.y y.y, mix₁ x.z y.z⟩

/-- `spatial::approach`. -/
def approach (o : FloatOps F) (t : Transform F) (target : Vec3 F) (rate deltaSeconds : F) :
    Transform F :=
  if o.le rate (o.ofInt 0) || o.le deltaSeconds (o.ofInt 0) then t
  else
    let factor := o.sub (o.ofInt 1) (o.exp (o.mul (o.neg rate) deltaSeconds))
    { t with position := t.position.mix o target factor }

/-- `move_followers_toward_targets`: every entity with both components. -/
def moveFollowersTowardTargets (o : FloatOps F) (deltaSeconds : F) (r : AppRegistry F) :
    AppRegistry F :=
  r.patch .transform fun e t ↦
    match (r.pool .pointerFollow).get? e with
    | some follow => approach o t follow.target follow.approachRate deltaSeconds
    | none => t

/-- `systems_.run(registry_, delta_seconds)`, in the order of registration. -/
def runSystems (o : FloatOps F) (deltaSeconds : F) (r : AppRegistry F) : AppRegistry F :=
  moveFollowersTowardTargets o deltaSeconds (incrementHeartbeatCounters r)

/-- The assignment both handlers make: the target of an entity that is in use and has
a `PointerFollow`. -/
def setTarget (e : Entity) (target : Vec3 F) (r : AppRegistry F) : AppRegistry F :=
  if r.Valid e ∧ r.Has .pointerFollow e then
    r.patch .pointerFollow fun e' follow ↦ if e' = e then { follow with target } else follow
  else r

/-! ## The population

What the application keeps in its registry: three entities that count ticks, one that
follows the pointer, and nothing else. -/

/-- `kHeartbeatEntityCount`. -/
def heartbeatEntityCount : Nat := 3

/-- The registry holds the heartbeat entities with these counters, the follower with
this transform and this target, and no other entity. -/
structure Populated (r : AppRegistry F) (counters : Pool HeartbeatCounter) (follower : Entity)
    (transform : Transform F) (follow : PointerFollow F) : Prop where
  sound : r.Sound
  counters_eq : r.pool .heartbeatCounter = counters
  length : counters.length = heartbeatEntityCount
  transform_eq : r.pool .transform = [(follower, transform)]
  follow_eq : r.pool .pointerFollow = [(follower, follow)]
  live : r.live.Perm (counters.map Prod.fst ++ [follower])

namespace Populated

variable {r : AppRegistry F} {counters : Pool HeartbeatCounter} {follower : Entity}
  {transform : Transform F} {follow : PointerFollow F}

theorem nodup_keys (h : Populated r counters follower transform follow) :
    (counters.map Prod.fst ++ [follower]).Nodup :=
  h.live.nodup_iff.mp (List.Nodup.of_map _ (EntityStorage.nodup_live r.entities))

theorem follower_notMem (h : Populated r counters follower transform follow) :
    follower ∉ counters.map Prod.fst := fun hm ↦
  List.disjoint_of_nodup_append h.nodup_keys hm List.mem_cons_self

theorem has_heartbeatCounter (h : Populated r counters follower transform follow) (e : Entity) :
    r.Has .heartbeatCounter e ↔ e ∈ counters.map Prod.fst := by
  rw [Registry.Has, h.counters_eq]

theorem has_transform (h : Populated r counters follower transform follow) (e : Entity) :
    r.Has .transform e ↔ e = follower := by
  rw [Registry.Has, Pool.Contains, h.transform_eq]
  exact List.mem_singleton

theorem has_pointerFollow (h : Populated r counters follower transform follow) (e : Entity) :
    r.Has .pointerFollow e ↔ e = follower := by
  rw [Registry.Has, Pool.Contains, h.follow_eq]
  exact List.mem_singleton

/-- The first entity with both components is the follower. -/
theorem viewFront (h : Populated r counters follower transform follow) :
    r.viewFront .transform .pointerFollow = some follower := by
  simp [Registry.viewFront, Registry.keys, h.transform_eq, h.follow_eq]

/-- One frame of the systems counts every counter up by one and moves the follower
towards its target. -/
theorem runSystems (h : Populated r counters follower transform follow) (o : FloatOps F)
    (dt : F) :
    Populated (runSystems o dt r) (counters.patch fun _ c ↦ c.advance 1) follower
      (approach o transform follow.target follow.approachRate dt) follow := by
  have htransform : (incrementHeartbeatCounters r).pool .transform = [(follower, transform)] := by
    rw [incrementHeartbeatCounters, Registry.patch_pool_of_ne (by decide), h.transform_eq]
  have hfollow : (incrementHeartbeatCounters r).pool .pointerFollow = [(follower, follow)] := by
    rw [incrementHeartbeatCounters, Registry.patch_pool_of_ne (by decide), h.follow_eq]
  refine ⟨(h.sound.patch _ _).patch _ _, ?_, ?_, ?_, ?_, ?_⟩
  · rw [App.runSystems, moveFollowersTowardTargets, Registry.patch_pool_of_ne (by decide),
      incrementHeartbeatCounters, Registry.patch_pool_self, h.counters_eq]
  · rw [Pool.length_patch, h.length]
  · rw [App.runSystems, moveFollowersTowardTargets, Registry.patch_pool_self, htransform, hfollow,
      Pool.patch_singleton, Pool.get?_singleton]
  · rw [App.runSystems, moveFollowersTowardTargets, Registry.patch_pool_of_ne (by decide), hfollow]
  · rw [Pool.keys_patch]
    exact h.live

/-- Aiming the follower changes its target only. -/
theorem setTarget (h : Populated r counters follower transform follow) (e : Entity)
    (target : Vec3 F) :
    ∃ follow', Populated (setTarget e target r) counters follower transform follow' := by
  unfold App.setTarget
  split
  · refine ⟨if follower = e then { follow with target } else follow, h.sound.patch _ _, ?_,
      h.length, ?_, ?_, h.live⟩
    · rw [Registry.patch_pool_of_ne (by decide), h.counters_eq]
    · rw [Registry.patch_pool_of_ne (by decide), h.transform_eq]
    · rw [Registry.patch_pool_self, h.follow_eq, Pool.patch_singleton]
  · exact ⟨follow, h⟩

/-! ## What a population looks like through the registry -/

/-- Exactly three entities have a `HeartbeatCounter`. -/
theorem length_heartbeats (h : Populated r counters follower transform follow) :
    (r.live.filter fun e ↦ r.Has .heartbeatCounter e).length = heartbeatEntityCount := by
  have hp : (r.live.filter fun e ↦ r.Has .heartbeatCounter e).Perm (counters.map Prod.fst) := by
    apply (h.live.filter _).trans
    rw [List.filter_append]
    have hall : ∀ e ∈ counters.map Prod.fst, decide (r.Has .heartbeatCounter e) = true :=
      fun e he ↦ decide_eq_true ((h.has_heartbeatCounter e).mpr he)
    have hnone : decide (r.Has .heartbeatCounter follower) = false :=
      decide_eq_false fun hf ↦ h.follower_notMem ((h.has_heartbeatCounter follower).mp hf)
    rw [List.filter_eq_self.mpr hall, List.filter_cons, hnone]
    exact (List.append_nil _).symm ▸ .refl _
  rw [hp.length_eq, List.length_map, h.length]

/-- The follower is the one entity with a `Transform` and a `PointerFollow`. -/
theorem followers_eq (h : Populated r counters follower transform follow) :
    (r.live.filter fun e ↦ r.Has .transform e ∧ r.Has .pointerFollow e) = [follower] := by
  have hp : (r.live.filter fun e ↦ r.Has .transform e ∧ r.Has .pointerFollow e).Perm
      [follower] := by
    apply (h.live.filter _).trans
    rw [List.filter_append]
    have hnone : ∀ e ∈ counters.map Prod.fst,
        ¬ decide (r.Has .transform e ∧ r.Has .pointerFollow e) = true := by
      intro e he hd
      have hf := (h.has_transform e).mp (of_decide_eq_true hd).1
      exact h.follower_notMem (hf ▸ he)
    have hfollower : decide (r.Has .transform follower ∧ r.Has .pointerFollow follower) = true :=
      decide_eq_true ⟨(h.has_transform _).mpr rfl, (h.has_pointerFollow _).mpr rfl⟩
    rw [List.filter_eq_nil_iff.mpr hnone, List.filter_cons, if_pos hfollower]
    exact .refl _
  exact List.perm_singleton.mp hp

/-- No other entity is in use. -/
theorem heartbeat_or_follower (h : Populated r counters follower transform follow) {e : Entity}
    (he : r.Valid e) :
    r.Has .heartbeatCounter e ∨ (r.Has .transform e ∧ r.Has .pointerFollow e) := by
  rcases List.mem_append.mp (h.live.mem_iff.mp he) with hm | hm
  · exact .inl ((h.has_heartbeatCounter e).mpr hm)
  · obtain rfl := List.mem_singleton.mp hm
    exact .inr ⟨(h.has_transform e).mpr rfl, (h.has_pointerFollow e).mpr rfl⟩

end Populated

end Konative.App
