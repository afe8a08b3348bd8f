import Konative.App.Systems
import Konative.Lib.Footprint

/-!
# The systems a world runs

`SystemSequence` runs the systems that were added, in that order, in every tick.  A system
reads and writes components, and those it reads and those it writes are its footprint.

The application's two systems are independent, so it does not matter which was added
first; and whatever else is added, and wherever, they count and move as they would by
themselves, as long as nothing else writes to their components.
-/

namespace Konative.Entt.Registry

universe u v

variable {ι : Type u} {Val : ι → Type v}

/-- The parts of a registry: the entities, and each pool. -/
def parts : Parts (Registry ι Val) (Option ι) where
  same i r r' := match i with
    | none => r.entities = r'.entities
    | some i => r.pool i = r'.pool i
  equivalence i := by
    cases i with
    | none => exact ⟨fun _ ↦ rfl, Eq.symm, Eq.trans⟩
    | some i => exact ⟨fun _ ↦ rfl, Eq.symm, Eq.trans⟩
  ext {r r'} h := by
    obtain ⟨entities, pool⟩ := r
    obtain ⟨entities', pool'⟩ := r'
    obtain rfl : entities = entities' := h none
    obtain rfl : pool = pool' := funext fun i ↦ h (some i)
    rfl

variable [DecidableEq ι] {i : ι} {reads : Set (Option ι)}

/-- A patch writes one pool, by that pool and what it looks at. -/
theorem footprint_patch (f : Registry ι Val → Entity → Val i → Val i) (hi : some i ∈ reads)
    (hf : ∀ r r', parts.Agree reads r r' → f r = f r') :
    parts.Footprint (fun r ↦ r.patch i (f r)) reads {some i} where
  frame r j hj := by
    cases j with
    | none => rfl
    | some j =>
        have hne : j ≠ i := fun h ↦ hj (congrArg some h)
        exact patch_pool_of_ne hne
  depends {r r'} h j hj := by
    obtain rfl := Set.mem_singleton_iff.mp hj
    have hpool : r.pool i = r'.pool i := h (some i) hi
    change (r.patch i (f r)).pool i = (r'.patch i (f r')).pool i
    rw [patch_pool_self, patch_pool_self, hpool, hf r r' h]

end Konative.Entt.Registry

namespace Konative.App

open Entt

variable {F : Type} {κ : Type} {Extra : κ → Type}

/-! ## The registry of a world -/

/-- The components of a world: the application's, and those of whatever else is added. -/
abbrev WorldComponent (κ : Type) := AppComponent ⊕ κ

/-- `World::registry()`. -/
abbrev WorldRegistry (F : Type) {κ : Type} (Extra : κ → Type) :=
  Registry (WorldComponent κ) (Sum.elim (AppComponent.Value F) Extra)

/-- The application's share of it. -/
def WorldRegistry.app (r : WorldRegistry F Extra) : AppRegistry F :=
  ⟨r.entities, fun i ↦ r.pool (.inl i)⟩

/-- A system, and the components it reads and writes. -/
structure System (F : Type) (Extra : κ → Type) where
  /-- `std::function<void(Registry&, float)>`. -/
  run : F → WorldRegistry F Extra → WorldRegistry F Extra
  reads : Set (Option (WorldComponent κ))
  writes : Set (Option (WorldComponent κ))
  footprint : ∀ deltaSeconds, Registry.parts.Footprint (run deltaSeconds) reads writes

/-- `SystemSequence`. -/
structure SystemSequence (F : Type) (Extra : κ → Type) where
  systems : List (System F Extra)

namespace SystemSequence

/-- `SystemSequence::add`. -/
def add (s : SystemSequence F Extra) (system : System F Extra) : SystemSequence F Extra :=
  ⟨s.systems ++ [system]⟩

/-- `SystemSequence::run`. -/
def run (s : SystemSequence F Extra) (deltaSeconds : F) (r : WorldRegistry F Extra) :
    WorldRegistry F Extra :=
  s.systems.foldl (fun r system ↦ system.run deltaSeconds r) r

/-- A run of ticks. -/
def runAll (s : SystemSequence F Extra) (deltas : List F) (r : WorldRegistry F Extra) :
    WorldRegistry F Extra :=
  deltas.foldl (fun r deltaSeconds ↦ s.run deltaSeconds r) r

end SystemSequence

variable [DecidableEq κ]

/-- `increment_heartbeat_counters`, which looks at its counters only. -/
def heartbeatSystem : System F Extra where
  run _ r := r.patch (.inl .heartbeatCounter) fun _ (h : HeartbeatCounter) ↦ h.advance 1
  reads := {some (.inl .heartbeatCounter)}
  writes := {some (.inl .heartbeatCounter)}
  footprint _ := by
    apply Registry.footprint_patch (ι := WorldComponent κ) (i := .inl .heartbeatCounter)
    · exact Set.mem_singleton _
    · intro r r' h
      rfl

/-- The body of `move_followers_toward_targets`. -/
def followTarget (o : FloatOps F) (deltaSeconds : F) (r : WorldRegistry F Extra) (e : Entity)
    (t : Transform F) : Transform F :=
  match (r.app.pool .pointerFollow).get? e with
  | some follow => approach o t follow.target follow.approachRate deltaSeconds
  | none => t

/-- `move_followers_toward_targets`, which looks at the targets too. -/
def followerSystem (o : FloatOps F) : System F Extra where
  run deltaSeconds r := r.patch (.inl .transform) (followTarget o deltaSeconds r)
  reads := {some (.inl .transform), some (.inl .pointerFollow)}
  writes := {some (.inl .transform)}
  footprint deltaSeconds := by
    apply Registry.footprint_patch (ι := WorldComponent κ) (i := .inl .transform)
    · exact Set.mem_insert _ _
    · intro r r' h
      have hfollow : (WorldRegistry.app r).pool .pointerFollow =
          (WorldRegistry.app r').pool .pointerFollow :=
        h (some (.inl .pointerFollow)) (Set.mem_insert_of_mem _ rfl)
      funext e t
      rw [followTarget, followTarget, hfollow]

/-- Patching one of the application's pools patches the application's share. -/
theorem app_patch (r : WorldRegistry F Extra) (i : AppComponent)
    (f : Entity → i.Value F → i.Value F) :
    WorldRegistry.app (r.patch (.inl i) f) = (WorldRegistry.app r).patch i f := by
  have hpool (j : AppComponent) :
      (WorldRegistry.app (r.patch (.inl i) f)).pool j =
        ((WorldRegistry.app r).patch i f).pool j := by
    by_cases hj : j = i
    · subst hj
      rw [Registry.patch_pool_self]
      exact Registry.patch_pool_self (r := r) (i := .inl j)
    · rw [Registry.patch_pool_of_ne hj]
      exact Registry.patch_pool_of_ne (r := r) (i := .inl i) fun h ↦ hj (Sum.inl.inj h)
  exact congrArg (Registry.mk r.entities) (funext hpool)

/-- What `on_started` adds. -/
def appSystems (o : FloatOps F) : SystemSequence F Extra :=
  ((⟨[]⟩ : SystemSequence F Extra).add heartbeatSystem).add (followerSystem o)

/-- On the application's share it does what `runSystems` does. -/
theorem app_run_appSystems (o : FloatOps F) (deltaSeconds : F) (r : WorldRegistry F Extra) :
    WorldRegistry.app ((appSystems o).run deltaSeconds r) =
      runSystems o deltaSeconds (WorldRegistry.app r) := by
  change WorldRegistry.app ((followerSystem o).run deltaSeconds
    (heartbeatSystem.run deltaSeconds r)) = _
  have hcount : WorldRegistry.app (heartbeatSystem.run deltaSeconds r) =
      incrementHeartbeatCounters (WorldRegistry.app r) := app_patch r .heartbeatCounter _
  rw [runSystems, ← hcount]
  exact app_patch _ .transform _

theorem app_runAll_appSystems (o : FloatOps F) (deltas : List F) (r : WorldRegistry F Extra) :
    WorldRegistry.app ((appSystems o).runAll deltas r) =
      deltas.foldl (fun r deltaSeconds ↦ runSystems o deltaSeconds r) (WorldRegistry.app r) := by
  induction deltas generalizing r with
  | nil => rfl
  | cons deltaSeconds deltas ih =>
      change WorldRegistry.app
        ((appSystems o).runAll deltas ((appSystems o).run deltaSeconds r)) = _
      rw [ih, app_run_appSystems, List.foldl_cons]

/-! ## Whatever else is added -/

/-- The components of the application's two systems. -/
def appParts (κ : Type) : Set (Option (WorldComponent κ)) :=
  {i | ∃ c : AppComponent, i = some (.inl c)}

variable {o : FloatOps F} {systems more : List (System F Extra)}

theorem independent_appSystems : Parts.Independent
    (heartbeatSystem : System F Extra).reads (heartbeatSystem : System F Extra).writes
    (followerSystem o : System F Extra).reads (followerSystem o : System F Extra).writes := by
  constructor
  · simp [heartbeatSystem, followerSystem]
  · simp [heartbeatSystem, followerSystem]
  · simp [heartbeatSystem, followerSystem]

open Classical in
/-- Of the systems added, those that write to the application's components are its own
two. -/
theorem filter_writes (hperm : systems.Perm (heartbeatSystem :: followerSystem o :: more))
    (hmore : ∀ s ∈ more, Disjoint (appParts κ) s.writes) :
    [heartbeatSystem, followerSystem o].Perm
      (systems.filter fun s ↦ ¬ Disjoint (appParts κ) s.writes) := by
  have hheartbeat : ¬ Disjoint (appParts κ) (heartbeatSystem : System F Extra).writes := fun h ↦
    Set.disjoint_left.mp h ⟨.heartbeatCounter, rfl⟩ rfl
  have hfollower : ¬ Disjoint (appParts κ) (followerSystem o : System F Extra).writes := fun h ↦
    Set.disjoint_left.mp h ⟨.transform, rfl⟩ rfl
  apply List.Perm.symm
  apply (hperm.filter _).trans
  rw [List.filter_cons_of_pos (by simp [hheartbeat]), List.filter_cons_of_pos (by simp [hfollower]),
    List.filter_eq_nil_iff.mpr fun s hs ↦ by simp [hmore s hs]]

/-- In one tick. -/
theorem agree_run (hperm : systems.Perm (heartbeatSystem :: followerSystem o :: more))
    (hmore : ∀ s ∈ more, Disjoint (appParts κ) s.writes) (deltaSeconds : F)
    {r r' : WorldRegistry F Extra} (h : Registry.parts.Agree (appParts κ) r r') :
    Registry.parts.Agree (appParts κ) ((⟨systems⟩ : SystemSequence F Extra).run deltaSeconds r)
      ((appSystems o).run deltaSeconds r') := by
  have hreads : ∀ s ∈ systems, s.reads ⊆ appParts κ ∨ Disjoint (appParts κ) s.writes := by
    intro s hs
    rcases List.mem_cons.mp (hperm.mem_iff.mp hs) with rfl | hs
    · exact .inl fun i hi ↦ ⟨_, hi⟩
    · rcases List.mem_cons.mp hs with rfl | hs
      · exact .inl fun i hi ↦ hi.elim (⟨_, ·⟩) (⟨_, ·⟩)
      · exact .inr (hmore s hs)
  classical
  have hfilter := Parts.agree_foldl_filter (fun s : System F Extra ↦ s.run deltaSeconds)
    (fun s ↦ s.footprint deltaSeconds) hreads h
  have hind : [heartbeatSystem, (followerSystem o : System F Extra)].Pairwise fun s s' ↦
      Parts.Independent s.reads s.writes s'.reads s'.writes := by
    simp [independent_appSystems]
  have hperm := Parts.foldl_perm (fun s : System F Extra ↦ s.run deltaSeconds)
    (fun s ↦ s.footprint deltaSeconds) hind (filter_writes hperm hmore) r'
  rw [← hperm] at hfilter
  exact hfilter

theorem agree_runAll (hperm : systems.Perm (heartbeatSystem :: followerSystem o :: more))
    (hmore : ∀ s ∈ more, Disjoint (appParts κ) s.writes) (deltas : List F)
    {r r' : WorldRegistry F Extra} (h : Registry.parts.Agree (appParts κ) r r') :
    Registry.parts.Agree (appParts κ) ((⟨systems⟩ : SystemSequence F Extra).runAll deltas r)
      ((appSystems o).runAll deltas r') := by
  induction deltas generalizing r r' with
  | nil => exact h
  | cons deltaSeconds deltas ih => exact ih (agree_run hperm hmore deltaSeconds h)

/-- Whatever systems are added, in whatever order and wherever among the application's
own two, if they write to none of the application's components, then after any ticks
these are what the two make of them by themselves, first the one and then the other. -/
theorem SystemSequence.pool_runAll
    (hperm : systems.Perm (heartbeatSystem :: followerSystem o :: more))
    (hmore : ∀ s ∈ more, Disjoint (appParts κ) s.writes) (deltas : List F)
    (r : WorldRegistry F Extra) (c : AppComponent) :
    (WorldRegistry.app ((⟨systems⟩ : SystemSequence F Extra).runAll deltas r)).pool c =
      (deltas.foldl (fun r deltaSeconds ↦ runSystems o deltaSeconds r)
        (WorldRegistry.app r)).pool c := by
  rw [← app_runAll_appSystems]
  exact agree_runAll hperm hmore deltas (.refl _ r) _ ⟨c, rfl⟩

/-- Something else in the world that switches on and off. -/
def blinkSystem : System UInt32 fun _ : Unit ↦ Bool where
  run _ r := r.patch (.inr ()) fun _ (b : Bool) ↦ !b
  reads := {some (.inr ())}
  writes := {some (.inr ())}
  footprint _ := by
    apply Registry.footprint_patch (ι := WorldComponent Unit) (i := .inr ())
    · exact Set.mem_singleton _
    · intro r r' h
      rfl

/-- A world with a counter and a light. -/
def blinkWorld (counter light : Entity) : WorldRegistry UInt32 fun _ : Unit ↦ Bool :=
  (Registry.empty.emplace (.inl .heartbeatCounter) counter (⟨5⟩ : HeartbeatCounter)).emplace
    (.inr ()) light true

/-- Between the two systems, the wrong way round, is a third. -/
theorem SystemSequence.pool_runAll_blink :
    (WorldRegistry.app ((⟨[followerSystem .whole, blinkSystem, heartbeatSystem]⟩ :
      SystemSequence UInt32 _).runAll [16, 17] (blinkWorld ⟨0, 0⟩ ⟨1, 0⟩))).pool
        .heartbeatCounter = [(⟨0, 0⟩, ⟨7⟩)] := by
  have hperm : [followerSystem .whole, blinkSystem, heartbeatSystem].Perm
      (heartbeatSystem :: followerSystem .whole :: [blinkSystem]) := by
    show ([followerSystem .whole, blinkSystem] ++ [heartbeatSystem]).Perm
      ([heartbeatSystem] ++ [followerSystem .whole, blinkSystem])
    exact List.perm_append_comm
  have hmore : ∀ s ∈ [blinkSystem], Disjoint (appParts Unit) s.writes := by
    intro s hs
    obtain rfl := List.mem_singleton.mp hs
    exact Set.disjoint_singleton_right.mpr fun ⟨c, hc⟩ ↦ by cases hc
  rw [SystemSequence.pool_runAll hperm hmore [16, 17] (blinkWorld ⟨0, 0⟩ ⟨1, 0⟩) .heartbeatCounter]
  rfl

end Konative.App
