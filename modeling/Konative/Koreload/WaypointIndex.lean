import Konative.Koreload.HotReload
import Mathlib.Data.Rat.Denumerable
import Mathlib.Data.Rat.Floor
import Mathlib.Tactic.Linarith

/-!
# The index of the waypoint

`drive_targets` adds up the deltas it is given and casts the sum, in units of
`kHoldSeconds`, to `std::size_t`.  A cast of a number that the type does not have, after
truncation, is undefined.  Nothing keeps a delta from being negative: `approach`, called
next with the same delta, checks for that, and `drive_targets` does not.

In exact arithmetic every cast of a run is defined if and only if the deltas never add up
to `-2` or less, nor to `2 ^ 65` or more.
-/

namespace Konative.Koreload

open App Entt

/-! ## Casts -/

/-- `drive_targets` where the cast may be undefined; `cast` says what it gives.  The
converted number comes first. -/
def driveTargetsChecked {F : Type} (o : FloatOps F) (cast : F → Option UInt64) (deltaSeconds : F)
    (state : WaypointCyclerState F) (r : AppRegistry F) :
    Option (UInt64 × WaypointCyclerState F × AppRegistry F) :=
  (cast (o.div (o.add state.elapsedSeconds deltaSeconds) (o.ofInt 2))).map fun size ↦
    (size, driveTargets o (fun _ ↦ size) deltaSeconds state r)

/-- Where the cast is defined, this is `drive_targets`. -/
theorem driveTargetsChecked_eq {F : Type} {o : FloatOps F} {toSize : F → UInt64}
    {cast : F → Option UInt64} (hcast : ∀ v size, cast v = some size → toSize v = size)
    {deltaSeconds : F} {state : WaypointCyclerState F} {r : AppRegistry F}
    {x : UInt64 × WaypointCyclerState F × AppRegistry F}
    (h : driveTargetsChecked o cast deltaSeconds state r = some x) :
    driveTargets o toSize deltaSeconds state r = x.2 := by
  obtain ⟨size, hsize, rfl⟩ := Option.map_eq_some_iff.mp h
  unfold driveTargets
  simp only [hcast _ _ hsize]

/-- `static_cast<std::size_t>` of an exact number: the number truncated towards zero, and
undefined when that is not a `std::size_t`. -/
def castToSize (v : ℚ) : Option UInt64 :=
  if -1 < v ∧ v < 2 ^ 64 then some (UInt64.ofNat ⌊v⌋.toNat) else none

/-- The operations on `float`, without rounding; `drive_targets` takes no exponential. -/
def rational (exp : ℚ → ℚ) : FloatOps ℚ where
  ofInt n := n
  le a b := a ≤ b
  add := (· + ·)
  sub := (· - ·)
  mul := (· * ·)
  div := (· / ·)
  neg a := -a
  exp := exp

/-! ## Runs of the module -/

/-- The globals of `waypoint_cycler` and the registry it drives. -/
structure Cycler where
  slot : Slot (WaypointCyclerState ℚ)
  registry : AppRegistry ℚ

/-- What a call of `drive_targets` has chosen, and where the followers then head. -/
structure Choice where
  index : Nat
  targets : List (Vec3 ℚ)

/-- The index is one of the waypoints', and every follower heads for a waypoint. -/
def Choice.Sound (exp : ℚ → ℚ) (c : Choice) : Prop :=
  c.index < 4 ∧ ∀ v ∈ c.targets, v ∈ Set.range (waypoints (rational exp))

namespace Cycler

/-- What can happen. -/
inductive Event
  | drive (deltaSeconds : ℚ)
  | reload
  /-- Anything else that happens to the registry. -/
  | other (f : AppRegistry ℚ → AppRegistry ℚ)

/-- The time an event lets pass. -/
def Event.delta : Event → ℚ
  | drive dt => dt
  | reload | other _ => 0

/-- The time that has passed. -/
def elapsed (w : List Event) : ℚ := (w.map Event.delta).sum

theorem elapsed_nil : elapsed [] = 0 := rfl

theorem elapsed_cons (e : Event) (w : List Event) : elapsed (e :: w) = e.delta + elapsed w := by
  rw [elapsed, List.map_cons, List.sum_cons, elapsed]

variable (exp : ℚ → ℚ) (codec : Codec ℚ)

/-- The module, which is stuck where a cast is undefined. -/
def machine : Machine Cycler Event Choice where
  step s
    | .drive dt => s.slot.live.bind fun state ↦
        (driveTargetsChecked (rational exp) castToSize dt state s.registry).map fun x ↦
          (⟨s.slot.modify fun _ ↦ x.2.1, x.2.2⟩,
            [⟨x.1.toNat % 4, (x.2.2.pool .pointerFollow).map fun y ↦ y.2.target⟩])
    | .reload => (s.slot.reload (waypointCycler (rational exp) codec)).map fun slot ↦
        ({ s with slot }, [])
    | .other f => some ({ s with registry := f s.registry }, [])

/-- The module just loaded. -/
def fresh (r : AppRegistry ℚ) : Cycler :=
  ⟨(⟨[], none⟩ : Slot _).load (waypointCycler (rational exp) codec), r⟩

/-- It starts at zero. -/
theorem live_fresh (r : AppRegistry ℚ) : (fresh exp codec r).slot.live = some ⟨0⟩ := by
  change ((⟨[], none⟩ : Slot _).repoint _).live = _
  rw [Slot.live_repoint]
  exact congrArg some (congrArg WaypointCyclerState.mk Int.cast_zero)

variable {s s' : Cycler} {t : ℚ} {w : List Event}

/-- A reload succeeds. -/
theorem exists_reload {state : WaypointCyclerState ℚ} {slot : Slot (WaypointCyclerState ℚ)}
    (h : slot.live = some state) :
    ∃ slot', slot.reload (waypointCycler (rational exp) codec) = some slot' ∧
      slot'.live = some state := by
  obtain ⟨slot', hslot⟩ : ∃ slot', slot.reload (waypointCycler (rational exp) codec) =
      some slot' := by
    rw [Slot.reload, h, Option.bind_some]
    let c := codec.map WaypointCyclerState.mk WaypointCyclerState.elapsedSeconds fun _ ↦ rfl
    have hdec := c.dec_enc state []
    rw [List.append_nil] at hdec
    change ∃ slot', (((c.dec (c.enc state)).map Prod.fst).map slot.repoint) = some slot'
    rw [hdec]
    exact ⟨_, rfl⟩
  exact ⟨slot', hslot, (Slot.live_reload hslot).trans h⟩

/-- The cast of a call is defined in these bounds. -/
theorem castToSize_isSome_iff (v : ℚ) :
    (castToSize (v / 2)).isSome ↔ -2 < v ∧ v < 2 ^ 64 * 2 := by
  have hlow : -1 < v / 2 ↔ -2 < v := by
    rw [lt_div_iff₀ two_pos]
    norm_num
  have hhigh : v / 2 < 2 ^ 64 ↔ v < 2 ^ 64 * 2 := div_lt_iff₀ two_pos
  rw [← hlow, ← hhigh]
  unfold castToSize
  split
  · rename_i h
    exact iff_of_true rfl h
  · rename_i h
    exact iff_of_false Bool.false_ne_true h

/-- What a call of `drive_targets` does, where it does anything. -/
theorem step_drive (h : s.slot.live = some ⟨t⟩) (dt : ℚ) :
    (-2 < t + dt ∧ t + dt < 2 ^ 64 * 2 → ∃ s₁ out, (machine exp codec).step s (.drive dt) =
      some (s₁, out) ∧ s₁.slot.live = some ⟨t + dt⟩) ∧
    (¬ (-2 < t + dt ∧ t + dt < 2 ^ 64 * 2) → (machine exp codec).step s (.drive dt) = none) := by
  have hcast := castToSize_isSome_iff (t + dt)
  have hstep : (machine exp codec).step s (.drive dt) =
      ((castToSize ((t + dt) / 2)).map fun size ↦
        (size, driveTargets (rational exp) (fun _ ↦ size) dt ⟨t⟩ s.registry)).map fun x ↦
          (⟨s.slot.modify fun _ ↦ x.2.1, x.2.2⟩,
            [⟨x.1.toNat % 4, (x.2.2.pool .pointerFollow).map fun y ↦ y.2.target⟩]) := by
    change s.slot.live.bind _ = _
    rw [h]
    rfl
  rw [hstep]
  constructor
  · intro hin
    obtain ⟨size, hsize⟩ := Option.isSome_iff_exists.mp (hcast.mpr hin)
    rw [hsize]
    refine ⟨_, _, rfl, ?_⟩
    rw [Slot.live_modify, h]
    rfl
  · intro hout
    rw [Option.not_isSome_iff_eq_none.mp (hcast.not.mpr hout)]
    rfl

/-- An event that is no call lets no time pass. -/
theorem exists_step_of_delta_eq_zero (h : s.slot.live = some ⟨t⟩) {e : Event}
    (he : ∀ dt, e ≠ .drive dt) : ∃ s₁, (machine exp codec).step s e = some (s₁, []) ∧
      s₁.slot.live = some ⟨t + e.delta⟩ := by
  cases e with
  | drive dt => exact absurd rfl (he dt)
  | reload =>
      obtain ⟨slot, hslot, hlive⟩ := exists_reload exp codec h
      refine ⟨{ s with slot }, ?_, ?_⟩
      · change (s.slot.reload _).map _ = _
        rw [hslot]
        rfl
      · rw [Event.delta, add_zero]
        exact hlive
  | other f =>
      refine ⟨{ s with registry := f s.registry }, rfl, ?_⟩
      rw [Event.delta, add_zero]
      exact h

/-- All the prefixes of a word. -/
theorem forall_prefix_cons {α : Type} {P : List α → Prop} (a : α) (w : List α) :
    (∀ v, v <+: a :: w → P v) ↔ P [] ∧ ∀ v, v <+: w → P (a :: v) := by
  constructor
  · intro h
    exact ⟨h [] List.nil_prefix, fun v hv ↦ h (a :: v) (List.prefix_cons_inj a |>.mpr hv)⟩
  · rintro ⟨hnil, hcons⟩ v hv
    rcases List.prefix_cons_iff.mp hv with rfl | ⟨v', rfl, hv'⟩
    · exact hnil
    · exact hcons v' hv'

/-- A run gets to its end if and only if at no time less than so much or more than so much
time has passed. -/
theorem run_isSome_iff (h : s.slot.live = some ⟨t⟩) (ht : -2 < t ∧ t < 2 ^ 64 * 2) :
    ((machine exp codec).run w s).isSome ↔
      ∀ v, v <+: w → -2 < t + elapsed v ∧ t + elapsed v < 2 ^ 64 * 2 := by
  induction w generalizing s t with
  | nil =>
      refine iff_of_true rfl fun v hv ↦ ?_
      rw [List.prefix_nil.mp hv, elapsed_nil, add_zero]
      exact ht
  | cons e w ih =>
      have hnil : -2 < t + elapsed [] ∧ t + elapsed [] < 2 ^ 64 * 2 := by
        rw [elapsed_nil, add_zero]
        exact ht
      rw [forall_prefix_cons, and_iff_right hnil]
      simp only [elapsed_cons, ← add_assoc]
      have hgo : ∀ {s₁ out}, (machine exp codec).step s e = some (s₁, out) →
          ((machine exp codec).run (e :: w) s).isSome = ((machine exp codec).run w s₁).isSome := by
        intro s₁ out hs
        rw [Machine.run, hs, Option.bind_some, Option.isSome_map]
      cases e with
      | drive dt =>
          obtain ⟨hin, hout⟩ := step_drive exp codec h dt
          by_cases hdt : -2 < t + dt ∧ t + dt < 2 ^ 64 * 2
          · obtain ⟨s₁, out, hs, hlive⟩ := hin hdt
            rw [hgo hs]
            exact ih hlive hdt
          · refine iff_of_false ?_ fun hall ↦ hdt ?_
            · rw [Machine.run, hout hdt]
              exact Bool.false_ne_true
            · have hv := hall [] List.nil_prefix
              rwa [elapsed_nil, add_zero] at hv
      | reload =>
          obtain ⟨s₁, hs, hlive⟩ :=
            exists_step_of_delta_eq_zero exp codec h (e := .reload) (by rintro _ ⟨⟩)
          rw [hgo hs]
          exact ih hlive (by rwa [Event.delta, add_zero])
      | other f =>
          obtain ⟨s₁, hs, hlive⟩ :=
            exists_step_of_delta_eq_zero exp codec h (e := .other f) (by rintro _ ⟨⟩)
          rw [hgo hs]
          exact ih hlive (by rwa [Event.delta, add_zero])

/-- A call chooses a waypoint and sends every follower there. -/
theorem sound_of_step {e : Event} {out : List Choice}
    (h : (machine exp codec).step s e = some (s', out)) : ∀ c ∈ out, c.Sound exp := by
  cases e with
  | reload =>
      obtain ⟨slot, -, hs⟩ := Option.map_eq_some_iff.mp h
      obtain ⟨-, rfl⟩ := Prod.mk.inj hs
      nofun
  | other f =>
      obtain ⟨-, rfl⟩ := Prod.mk.inj (Option.some.inj h)
      nofun
  | drive dt =>
      obtain ⟨state, -, h⟩ := Option.bind_eq_some_iff.mp h
      obtain ⟨x, hx, hs⟩ := Option.map_eq_some_iff.mp h
      obtain ⟨size, -, rfl⟩ := Option.map_eq_some_iff.mp hx
      obtain ⟨-, rfl⟩ := Prod.mk.inj hs
      intro c hc
      obtain rfl := List.mem_singleton.mp hc
      refine ⟨Nat.mod_lt _ (by decide), fun v hv ↦ ?_⟩
      obtain ⟨y, hy, rfl⟩ := List.mem_map.mp hv
      change y ∈ (Registry.patch _ _ _).pool .pointerFollow at hy
      rw [Registry.patch_pool_self] at hy
      obtain ⟨z, -, rfl⟩ := List.mem_map.mp hy
      exact ⟨_, rfl⟩

theorem sound_of_run {out : List Choice} (h : (machine exp codec).run w s = some (s', out)) :
    ∀ c ∈ out, c.Sound exp := by
  induction w generalizing s out with
  | nil =>
      obtain ⟨-, rfl⟩ := Prod.mk.inj (Option.some.inj h)
      nofun
  | cons e w ih =>
      obtain ⟨s₁, out₁, out₂, h₁, h₂, rfl⟩ := Machine.run_cons_eq_some h
      intro c hc
      rcases List.mem_append.mp hc with hc | hc
      · exact sound_of_step exp codec h₁ c hc
      · exact ih h₂ c hc

/-- Whatever is reloaded in between and whatever else happens to the registry, every cast of
a run of the module is defined, every index is one of a waypoint and every follower is sent
to a waypoint, if and only if at every time of the run the elapsed time is above `-2` and
below `2 ^ 64 * 2` seconds. -/
theorem waypoint_index_defined_iff (exp : ℚ → ℚ) (codec : Codec ℚ) (r : AppRegistry ℚ)
    (w : List Event) :
    (∃ s out, (machine exp codec).run w (fresh exp codec r) = some (s, out) ∧
      ∀ c ∈ out, c.Sound exp) ↔
      ∀ v, v <+: w → -2 < elapsed v ∧ elapsed v < 2 ^ 64 * 2 := by
  have hrun := run_isSome_iff exp codec (w := w) (live_fresh exp codec r) (by norm_num)
  simp only [zero_add] at hrun
  rw [← hrun, Option.isSome_iff_exists]
  constructor
  · rintro ⟨s, out, h, -⟩
    exact ⟨(s, out), h⟩
  · rintro ⟨⟨s, out⟩, h⟩
    exact ⟨s, out, h, sound_of_run exp codec h⟩

/-- Exact numbers in an archive. -/
def rationalCodec : Codec ℚ :=
  Codec.unary.map (fun n ↦ (Encodable.decode n).getD 0) Encodable.encode fun q ↦ by
    rw [Encodable.encodek, Option.getD_some]

/-- One frame of minus two seconds, and the cast is undefined. -/
theorem waypoint_index_undefined :
    ¬ ∃ s out, (machine id rationalCodec).run [.drive (-2)] (fresh id rationalCodec .empty) =
      some (s, out) ∧ ∀ c ∈ out, c.Sound id := by
  rintro ⟨s, out, h, -⟩
  obtain ⟨s₁, out₁, out₂, h₁, -, -⟩ := Machine.run_cons_eq_some h
  have hlive := live_fresh id rationalCodec .empty
  have hnone := (step_drive id rationalCodec hlive (-2)).2 (by norm_num)
  cases hnone.symm.trans h₁

end Cycler

end Konative.Koreload
