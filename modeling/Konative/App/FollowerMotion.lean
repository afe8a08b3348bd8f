import Konative.App.Systems
import Konative.Lib.Glide
import Mathlib.Analysis.InnerProductSpace.PiL2

/-!
# How the follower moves

`move_followers_toward_targets` in exact real arithmetic.  One call of `approach` is one
glide towards the target, so what the deltas of a run add up to is all that matters, and
an entity never leaves the span of where it was and of the targets it has had.
-/

namespace Konative.App

open Entt

/-! ## Runs of the system -/

section Runs

variable {F : Type}

/-- `approach`, once for each delta. -/
def approachAll (o : FloatOps F) (target : Vec3 F) (rate : F) (deltas : List F)
    (t : Transform F) : Transform F :=
  deltas.foldl (fun t dt ↦ approach o t target rate dt) t

/-- `move_followers_toward_targets`, once for each delta. -/
def moveAll (o : FloatOps F) (deltas : List F) (r : AppRegistry F) : AppRegistry F :=
  deltas.foldl (fun r dt ↦ moveFollowersTowardTargets o dt r) r

/-- Where a run takes the transform of an entity. -/
def movedBy (o : FloatOps F) (deltas : List F) (r : AppRegistry F) (e : Entity)
    (t : Transform F) : Transform F :=
  match (r.pool .pointerFollow).get? e with
  | some follow => approachAll o follow.target follow.approachRate deltas t
  | none => t

/-- A run writes to each transform once, as far as one can tell afterwards. -/
theorem moveAll_eq (o : FloatOps F) (deltas : List F) (r : AppRegistry F) :
    moveAll o deltas r = r.patch .transform (movedBy o deltas r) := by
  induction deltas generalizing r with
  | nil =>
      have hid : movedBy o [] r = fun _ t ↦ t := by
        funext e t
        unfold movedBy
        cases (r.pool .pointerFollow).get? e <;> rfl
      rw [hid, Registry.patch_id]
      rfl
  | cons dt deltas ih =>
      have hfollow : (moveFollowersTowardTargets o dt r).pool .pointerFollow =
          r.pool .pointerFollow := Registry.patch_pool_of_ne (by decide)
      rw [moveAll, List.foldl_cons, ← moveAll, ih, moveFollowersTowardTargets,
        Registry.patch_patch]
      congr 1
      funext e t
      unfold movedBy
      rw [← moveFollowersTowardTargets, hfollow]
      cases (r.pool .pointerFollow).get? e <;> rfl

/-- `approach` writes to the position only. -/
theorem approach_eq (o : FloatOps F) (t : Transform F) (target : Vec3 F) (rate dt : F) :
    ∃ p, approach o t target rate dt = { t with position := p } := by
  unfold approach
  split
  · exact ⟨t.position, rfl⟩
  · exact ⟨_, rfl⟩

theorem approachAll_eq (o : FloatOps F) (target : Vec3 F) (rate : F) (deltas : List F)
    (t : Transform F) : ∃ p, approachAll o target rate deltas t = { t with position := p } := by
  induction deltas generalizing t with
  | nil => exact ⟨t.position, rfl⟩
  | cons dt deltas ih =>
      obtain ⟨p, hp⟩ := approach_eq o t target rate dt
      obtain ⟨q, hq⟩ := ih (approach o t target rate dt)
      refine ⟨q, ?_⟩
      rw [approachAll, List.foldl_cons, ← approachAll, hq, hp]

/-- Nothing of the registry is another than it was, except that entities with both
components may be at another position. -/
structure OnlyMoves (r r' : AppRegistry F) : Prop where
  entities_eq : r'.entities = r.entities
  pool_eq : ∀ i, i ≠ .transform → r'.pool i = r.pool i
  keys_eq : r'.keys .transform = r.keys .transform
  /-- The rotation and the scale stay. -/
  position : ∀ e t, (r.pool .transform).get? e = some t →
    ∃ p, (r'.pool .transform).get? e = some { t with position := p }
  /-- So does the position of an entity that follows nothing. -/
  lacking : ∀ e, (r.pool .pointerFollow).get? e = none →
    (r'.pool .transform).get? e = (r.pool .transform).get? e

theorem onlyMoves_moveAll (o : FloatOps F) (deltas : List F) (r : AppRegistry F) :
    OnlyMoves r (moveAll o deltas r) := by
  rw [moveAll_eq]
  constructor
  · rfl
  · intro i hi
    exact Registry.patch_pool_of_ne hi
  · exact Registry.keys_patch _
  · intro e t ht
    rw [Registry.patch_pool_self, Pool.get?_patch, ht, Option.map_some, movedBy]
    cases (r.pool .pointerFollow).get? e with
    | none => exact ⟨t.position, rfl⟩
    | some follow =>
        obtain ⟨p, hp⟩ := approachAll_eq o follow.target follow.approachRate deltas t
        exact ⟨p, congrArg some hp⟩
  · intro e he
    have hid : movedBy o deltas r e = id := by
      funext t
      rw [movedBy, he]
      rfl
    rw [Registry.patch_pool_self, Pool.get?_patch, hid, Option.map_id, id]

end Runs

/-! ## Exact arithmetic -/

/-- The operations on `float`, without rounding. -/
noncomputable def FloatOps.real : FloatOps ℝ where
  ofInt n := n
  le a b := decide (a ≤ b)
  add := (· + ·)
  sub := (· - ·)
  mul := (· * ·)
  div := (· / ·)
  neg a := -a
  exp := Real.exp

/-- The three axes. -/
inductive Axis
  | x
  | y
  | z
deriving DecidableEq, Repr

/-- A vector's coordinate on an axis. -/
def Vec3.coord {F : Type} (v : Vec3 F) : Axis → F
  | .x => v.x
  | .y => v.y
  | .z => v.z

/-- A position that glides on each of the axes. -/
noncomputable def Vec3.glide (k t : ℝ) (g v : Vec3 ℝ) : Vec3 ℝ :=
  ⟨Konative.glide k t g.x v.x, Konative.glide k t g.y v.y, Konative.glide k t g.z v.z⟩

theorem Vec3.coord_glide (k t : ℝ) (g v : Vec3 ℝ) (a : Axis) :
    (Vec3.glide k t g v).coord a = Konative.glide k t (g.coord a) (v.coord a) := by
  cases a <;> rfl

theorem Vec3.glide_of_retained {k t : ℝ} (h : retained k t = 1) (g v : Vec3 ℝ) :
    Vec3.glide k t g v = v := by
  ext <;> exact Konative.glide_of_retained h _ _

theorem mix_real (x g : Vec3 ℝ) {k t : ℝ} (hk : 0 < k) (ht : 0 < t) :
    Vec3.mix .real x g (1 - Real.exp (-k * t)) = Vec3.glide k t g x := by
  have hmix (x g : ℝ) : x * ((1 : ℤ) - (1 - Real.exp (-k * t))) + g * (1 - Real.exp (-k * t)) =
      Konative.glide k t g x := by
    rw [glide, retained_of_pos hk ht, smul_eq_mul, Int.cast_one]
    ring
  ext
  · exact hmix x.x g.x
  · exact hmix x.y g.y
  · exact hmix x.z g.z

/-- The early returns of `approach` are the times that count for nothing. -/
theorem approach_real (t : Transform ℝ) (target : Vec3 ℝ) (rate dt : ℝ) :
    approach .real t target rate dt =
      { t with position := Vec3.glide rate dt target t.position } := by
  have hle (a : ℝ) : FloatOps.real.le a (FloatOps.real.ofInt 0) = decide (a ≤ 0) := by
    change decide (a ≤ ((0 : ℤ) : ℝ)) = _
    rw [Int.cast_zero]
  rw [approach, hle, hle]
  rcases le_or_gt rate 0 with hr | hr
  · rw [decide_eq_true hr, Bool.true_or, if_pos rfl,
      Vec3.glide_of_retained (retained_of_rate_nonpos hr dt)]
  rcases le_or_gt dt 0 with hd | hd
  · rw [decide_eq_true hd, Bool.or_true, if_pos rfl,
      Vec3.glide_of_retained (retained_of_time_nonpos rate hd)]
  rw [decide_eq_false hr.not_ge, decide_eq_false hd.not_ge, if_neg (by decide),
    ← mix_real _ _ hr hd]
  change { t with position := t.position.mix .real target (((1 : ℤ) : ℝ) - _) } = _
  rw [Int.cast_one]
  rfl

/-- A run lands where one step over all of its time lands. -/
theorem approachAll_real (target : Vec3 ℝ) (rate : ℝ) {deltas : List ℝ}
    (h : ∀ dt ∈ deltas, 0 ≤ dt) (t : Transform ℝ) :
    approachAll .real target rate deltas t = approach .real t target rate deltas.sum := by
  induction deltas generalizing t with
  | nil =>
      rw [List.sum_nil, approach_real,
        Vec3.glide_of_retained (retained_of_time_nonpos rate le_rfl)]
      rfl
  | cons dt deltas ih =>
      have hdt : 0 ≤ dt := h dt List.mem_cons_self
      have hdts : ∀ d ∈ deltas, 0 ≤ d := fun d hd ↦ h d (List.mem_cons_of_mem dt hd)
      have hglide (g v : ℝ) := glide_glide rate hdt (List.sum_nonneg hdts) g v
      rw [approachAll, List.foldl_cons, ← approachAll, ih hdts, approach_real, approach_real,
        approach_real, List.sum_cons]
      congr 1
      ext <;> exact hglide _ _

/-! ## Frame-rate independence -/

/-- A registry with one entity, which follows the pointer. -/
def oneFollower {F : Type} (o : FloatOps F) (e : Entity) (target : Vec3 F) : AppRegistry F :=
  Registry.emplace (Registry.emplace ⟨EntityStorage.empty.tryEmplace e, fun _ ↦ []⟩
    .transform e (.default o)) .pointerFollow e { PointerFollow.default o with target }

/-- Two runs whose deltas add up to the same time leave the same registry, and every run
leaves everything but the positions of followers as it was. -/
theorem moveAll_frameRateIndependent (r : AppRegistry ℝ) :
    (∀ ds es : List ℝ, (∀ dt ∈ ds, 0 ≤ dt) → (∀ dt ∈ es, 0 ≤ dt) → ds.sum = es.sum →
      moveAll .real ds r = moveAll .real es r) ∧
    ∀ ds : List ℝ, OnlyMoves r (moveAll .real ds r) := by
  refine ⟨?_, fun ds ↦ onlyMoves_moveAll .real ds r⟩
  intro ds es hds hes hsum
  rw [moveAll_eq, moveAll_eq]
  congr 1
  funext e t
  unfold movedBy
  cases (r.pool .pointerFollow).get? e with
  | none => rfl
  | some follow =>
      change approachAll .real follow.target follow.approachRate ds t =
        approachAll .real follow.target follow.approachRate es t
      rw [approachAll_real _ _ hds, approachAll_real _ _ hes, hsum]

/-- Half a second in one frame, and in three of which one takes no time. -/
theorem moveAll_frameRateIndependent_half :
    moveAll .real [1 / 2] (oneFollower .real ⟨0, 0⟩ ⟨3, 4, 0⟩) =
      moveAll .real [1 / 4, 0, 1 / 4] (oneFollower .real ⟨0, 0⟩ ⟨3, 4, 0⟩) := by
  refine (moveAll_frameRateIndependent (oneFollower .real ⟨0, 0⟩ ⟨3, 4, 0⟩)).1 _ _ ?_ ?_ ?_
  · simp
  · simp
  · norm_num

/-! ## Moving targets -/

section Motion

variable {F : Type}

/-- What may happen to a follower.  No handler writes the rate, but it is a field like any
other. -/
inductive Motion (F : Type)
  | aim (e : Entity) (target : Vec3 F)
  | setRate (e : Entity) (rate : F)
  | tick (dt : F)

/-- One of these. -/
def Motion.apply (o : FloatOps F) (r : AppRegistry F) : Motion F → AppRegistry F
  | aim e target => setTarget e target r
  | setRate e rate => r.patch .pointerFollow fun e' follow ↦
      if e' = e then { follow with approachRate := rate } else follow
  | tick dt => runSystems o dt r

/-- The registry after a run. -/
def Motion.after (o : FloatOps F) (r : AppRegistry F) (run : List (Motion F)) : AppRegistry F :=
  run.foldl (Motion.apply o) r

/-- The targets an entity has had in a run, the first and the last one included. -/
def Motion.targets (o : FloatOps F) (e : Entity) : AppRegistry F → List (Motion F) → List (Vec3 F)
  | r, [] => (((r.pool .pointerFollow).get? e).map PointerFollow.target).toList
  | r, m :: run =>
      (((r.pool .pointerFollow).get? e).map PointerFollow.target).toList ++
        targets o e (m.apply o r) run

/-- The entity has both components. -/
structure IsFollower (r : AppRegistry F) (e : Entity) (t : Transform F) (follow : PointerFollow F) :
    Prop where
  transform : (r.pool .transform).get? e = some t
  follow : (r.pool .pointerFollow).get? e = some follow

variable {o : FloatOps F} {r : AppRegistry F} {e : Entity} {t : Transform F}
  {follow : PointerFollow F}

/-- A tick moves the entity by one `approach`. -/
theorem IsFollower.runSystems (h : IsFollower r e t follow) (o : FloatOps F) (dt : F) :
    IsFollower (runSystems o dt r) e (approach o t follow.target follow.approachRate dt)
      follow := by
  have htransform : ((incrementHeartbeatCounters r).pool .transform).get? e = some t := by
    rw [incrementHeartbeatCounters, Registry.patch_pool_of_ne (by decide), h.transform]
  have hfollow : ((incrementHeartbeatCounters r).pool .pointerFollow).get? e = some follow := by
    rw [incrementHeartbeatCounters, Registry.patch_pool_of_ne (by decide), h.follow]
  constructor
  · rw [App.runSystems, moveFollowersTowardTargets, Registry.patch_pool_self, Pool.get?_patch,
      htransform, Option.map_some, hfollow]
  · rw [App.runSystems, moveFollowersTowardTargets, Registry.patch_pool_of_ne (by decide), hfollow]

/-- Writing to the followers moves nothing. -/
theorem IsFollower.patch (h : IsFollower r e t follow)
    (f : Entity → PointerFollow F → PointerFollow F) :
    IsFollower (r.patch .pointerFollow f) e t (f e follow) := by
  constructor
  · rw [Registry.patch_pool_of_ne (by decide), h.transform]
  · rw [Registry.patch_pool_self, Pool.get?_patch, h.follow, Option.map_some]

/-- What a step of a run does to an entity with both components. -/
theorem IsFollower.apply (h : IsFollower r e t follow) (o : FloatOps F) (m : Motion F) :
    ∃ t' follow', IsFollower (m.apply o r) e t' follow' ∧
      (t' = t ∨ ∃ dt, t' = approach o t follow.target follow.approachRate dt) := by
  cases m with
  | aim e' target =>
      change ∃ t' follow', IsFollower (setTarget e' target r) e t' follow' ∧ _
      unfold setTarget
      split
      · exact ⟨t, _, h.patch _, .inl rfl⟩
      · exact ⟨t, follow, h, .inl rfl⟩
  | setRate e' rate => exact ⟨t, _, h.patch _, .inl rfl⟩
  | tick dt => exact ⟨_, follow, h.runSystems o dt, .inr ⟨dt, rfl⟩⟩

theorem IsFollower.target_mem (h : IsFollower r e t follow) (o : FloatOps F)
    (run : List (Motion F)) :
    follow.target ∈ Motion.targets o e r run := by
  cases run <;> simp [Motion.targets, h.follow]

theorem Motion.mem_targets_cons {m : Motion F} {run : List (Motion F)} {v : Vec3 F}
    (h : v ∈ Motion.targets o e (m.apply o r) run) : v ∈ Motion.targets o e r (m :: run) :=
  List.mem_append_right _ h

end Motion

/-! ## No overshoot -/

/-- The distance of two points. -/
noncomputable def Vec3.distance (u v : Vec3 ℝ) : ℝ :=
  Real.sqrt ((u.x - v.x) ^ 2 + (u.y - v.y) ^ 2 + (u.z - v.z) ^ 2)

/-- A vector as a point of the space. -/
noncomputable def Vec3.point (v : Vec3 ℝ) : EuclideanSpace ℝ (Fin 3) := !₂[v.x, v.y, v.z]

theorem Vec3.distance_eq (u v : Vec3 ℝ) : u.distance v = dist u.point v.point := by
  rw [EuclideanSpace.dist_eq, Fin.sum_univ_three, Real.dist_eq, Real.dist_eq, Real.dist_eq, sq_abs,
    sq_abs, sq_abs]
  rfl

theorem Vec3.point_glide (k t : ℝ) (g v : Vec3 ℝ) :
    (Vec3.glide k t g v).point = Konative.glide k t g.point v.point := by
  ext i
  fin_cases i <;> rfl

theorem Vec3.point_injective : Function.Injective Vec3.point := by
  intro u v h
  ext
  · exact congrFun (congrArg WithLp.ofLp h) 0
  · exact congrFun (congrArg WithLp.ofLp h) 1
  · exact congrFun (congrArg WithLp.ofLp h) 2

/-- From `old` to `new` in a tick: each coordinate moves towards the target, if at all, and
not beyond it, and the distance shrinks whenever it can. -/
structure Approaches (target : Vec3 ℝ) (rate dt : ℝ) (old new : Vec3 ℝ) : Prop where
  between : ∀ a, new.coord a ∈ Set.uIcc (old.coord a) (target.coord a)
  distance_le : new.distance target ≤ old.distance target
  distance_lt : 0 < rate → 0 < dt → old ≠ target → new.distance target < old.distance target

theorem approaches_glide (target : Vec3 ℝ) (rate dt : ℝ) (v : Vec3 ℝ) :
    Approaches target rate dt v (Vec3.glide rate dt target v) := by
  constructor
  · intro a
    rw [Vec3.coord_glide]
    exact glide_mem_uIcc ..
  · rw [Vec3.distance_eq, Vec3.distance_eq, Vec3.point_glide]
    exact dist_glide_le ..
  · intro hr hd hv
    rw [Vec3.distance_eq, Vec3.distance_eq, Vec3.point_glide]
    exact dist_glide_lt hr hd (Vec3.point_injective.ne hv)

theorem approaches_approach (t : Transform ℝ) (target : Vec3 ℝ) (rate dt : ℝ) :
    Approaches target rate dt t.position (approach .real t target rate dt).position := by
  rw [approach_real]
  exact approaches_glide ..

/-- An entity stays in the span of where it was and of the targets it has had. -/
theorem IsFollower.spans_after {r : AppRegistry ℝ} {e : Entity} {t : Transform ℝ}
    {follow : PointerFollow ℝ} (h : IsFollower r e t follow) (run : List (Motion ℝ)) :
    ∃ t' follow', IsFollower (Motion.after .real r run) e t' follow' ∧
      ∀ a, Spans (t.position.coord a :: (Motion.targets .real e r run).map fun v ↦ v.coord a)
        (t'.position.coord a) := by
  induction run generalizing r t follow with
  | nil => exact ⟨t, follow, h, fun a ↦ spans_of_mem List.mem_cons_self⟩
  | cons m run ih =>
      obtain ⟨t₁, follow₁, h₁, hmoved⟩ := h.apply .real m
      obtain ⟨t', follow', h', hspans⟩ := ih h₁
      refine ⟨t', follow', h', fun a ↦ (hspans a).trans ?_⟩
      -- the position after one step lies between the old one and the target of that step
      have hold : Spans (t.position.coord a ::
          (Motion.targets .real e r (m :: run)).map fun v ↦ v.coord a) (t.position.coord a) :=
        spans_of_mem List.mem_cons_self
      have htarget : Spans (t.position.coord a ::
          (Motion.targets .real e r (m :: run)).map fun v ↦ v.coord a) (follow.target.coord a) :=
        spans_of_mem (List.mem_cons_of_mem _ (List.mem_map_of_mem (h.target_mem .real _)))
      intro w hw
      rcases List.mem_cons.mp hw with rfl | hw
      · rcases hmoved with rfl | ⟨dt, rfl⟩
        · exact hold
        · exact hold.between htarget ((approaches_approach t follow.target _ dt).between a)
      · obtain ⟨v, hv, rfl⟩ := List.mem_map.mp hw
        exact spans_of_mem (List.mem_cons_of_mem _
          (List.mem_map_of_mem (Motion.mem_targets_cons hv)))

/-- From any registry, whatever targets and rates are set and whatever ticks are run: the
next tick takes the entity towards the target it then has and not beyond it, and the entity
has stayed in the span of where it was and of the targets it has had. -/
theorem follower_never_overshoots {r : AppRegistry ℝ} {e : Entity} {t : Transform ℝ}
    {follow : PointerFollow ℝ} (h : IsFollower r e t follow) (run : List (Motion ℝ)) :
    ∃ t' follow', IsFollower (Motion.after .real r run) e t' follow' ∧
      (∀ dt, ∃ t'', IsFollower (Motion.after .real r (run ++ [.tick dt])) e t'' follow' ∧
        Approaches follow'.target follow'.approachRate dt t'.position t''.position) ∧
      ∀ a, Spans (t.position.coord a :: (Motion.targets .real e r run).map fun v ↦ v.coord a)
        (t'.position.coord a) := by
  obtain ⟨t', follow', h', hspans⟩ := h.spans_after run
  refine ⟨t', follow', h', fun dt ↦ ⟨_, ?_, approaches_approach ..⟩, hspans⟩
  rw [Motion.after, List.foldl_append]
  exact h'.runSystems .real dt

/-- A follower that is aimed elsewhere in mid-run. -/
theorem follower_never_overshoots_oneFollower :
    ∃ t' follow', IsFollower (Motion.after .real (oneFollower .real ⟨0, 0⟩ ⟨3, 4, 0⟩)
        [.tick 1, .aim ⟨0, 0⟩ ⟨-1, 0, 0⟩, .tick (-1)]) ⟨0, 0⟩ t' follow' ∧
      (∀ dt, ∃ t'', IsFollower (Motion.after .real (oneFollower .real ⟨0, 0⟩ ⟨3, 4, 0⟩)
          ([.tick 1, .aim ⟨0, 0⟩ ⟨-1, 0, 0⟩, .tick (-1)] ++ [.tick dt])) ⟨0, 0⟩ t'' follow' ∧
        Approaches follow'.target follow'.approachRate dt t'.position t''.position) ∧
      ∀ a, Spans ((Transform.default .real).position.coord a ::
          (Motion.targets .real ⟨0, 0⟩ (oneFollower .real ⟨0, 0⟩ ⟨3, 4, 0⟩)
            [.tick 1, .aim ⟨0, 0⟩ ⟨-1, 0, 0⟩, .tick (-1)]).map fun v ↦ v.coord a)
        (t'.position.coord a) :=
  follower_never_overshoots (r := oneFollower .real ⟨0, 0⟩ ⟨3, 4, 0⟩)
    ⟨Pool.get?_singleton .., Pool.get?_singleton ..⟩ _

end Konative.App
