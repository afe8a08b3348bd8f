import Konative.Entt.EntityStorage
import Konative.Lib.Lts

/-!
# EnTT's registry

A registry is the entity storage and one pool for each component type.  A pool
holds its entries in insertion order, which is the order EnTT's `reach()` visits
them in, and fills the gap of a removed entry with the last one.

`ι` is the set of component types and `Val i` the values of the type `i`.
-/

universe u v

namespace Konative.Entt

/-- The entries of one component type. -/
abbrev Pool (V : Type v) := List (Entity × V)

namespace Pool

variable {V : Type v}

/-- `contains(e)`. -/
abbrev Contains (l : Pool V) (e : Entity) : Prop := e ∈ l.map Prod.fst

/-- `try_get(e)`. -/
def get? (l : Pool V) (e : Entity) : Option V := (l.find? fun x ↦ x.1 = e).map Prod.snd

/-- `swap_and_pop`: the last entry takes the place of the removed one. -/
def remove (l : Pool V) (e : Entity) : Pool V :=
  match l.findIdx? fun x ↦ x.1 = e with
  | some p => (l.exchange p (l.length - 1)).take (l.length - 1)
  | none => l

/-- A pool holds one entry for an entity. -/
abbrev Keyed (l : Pool V) : Prop := (l.map Prod.fst).Nodup

/-- Removing an entity leaves the entries of the others. -/
theorem mem_remove {l : Pool V} (hl : l.Keyed) {e : Entity} {x : Entity × V} :
    x ∈ l.remove e ↔ x ∈ l ∧ x.1 ≠ e := by
  unfold remove
  split
  · rename_i p hp
    obtain ⟨hlt, hpe, -⟩ := List.findIdx?_eq_some_iff_getElem.mp hp
    have hpe : l[p].1 = e := of_decide_eq_true hpe
    rw [List.mem_take_exchange_pred (List.Nodup.of_map _ hl) hlt (Nat.le_refl _)
      (List.getElem?_eq_getElem hlt), List.take_length]
    refine and_congr_right fun hx ↦ not_congr ⟨fun h ↦ h ▸ hpe, fun h ↦ ?_⟩
    exact List.inj_on_of_nodup_map hl hx (List.getElem_mem hlt) (h.trans hpe.symm)
  · rename_i hp
    refine ⟨fun hx ↦ ⟨hx, fun he ↦ ?_⟩, And.left⟩
    have := List.findIdx?_eq_none_iff.mp hp x hx
    simp [he] at this

theorem Keyed.remove {l : Pool V} (hl : l.Keyed) (e : Entity) : (l.remove e).Keyed := by
  unfold Pool.remove
  split
  · rename_i p _
    have h : ((l.exchange p (l.length - 1)).map Prod.fst).Nodup := by
      rw [List.map_exchange]
      exact List.nodup_exchange.mpr hl
    rw [Keyed, List.map_take]
    exact h.sublist (List.take_sublist _ _)
  · exact hl

theorem contains_of_get? {l : Pool V} {e : Entity} {v : V} (h : l.get? e = some v) :
    l.Contains e := by
  obtain ⟨x, hx, -⟩ := Option.map_eq_some_iff.mp h
  have he : x.1 = e := by simpa using List.find?_some hx
  exact he ▸ List.mem_map_of_mem (List.mem_of_find?_eq_some hx)

theorem get?_eq_some {l : Pool V} (hl : l.Keyed) {e : Entity} {v : V} :
    l.get? e = some v ↔ (e, v) ∈ l := by
  rw [get?, Option.map_eq_some_iff]
  constructor
  · rintro ⟨x, hx, rfl⟩
    have he : x.1 = e := by simpa using List.find?_some hx
    rw [← he]
    exact List.mem_of_find?_eq_some hx
  · intro hm
    cases hf : l.find? fun x ↦ x.1 = e with
    | none =>
        have := List.find?_eq_none.mp hf _ hm
        simp at this
    | some x =>
        have he : x.1 = e := by simpa using List.find?_some hf
        have hx := List.inj_on_of_nodup_map hl (List.mem_of_find?_eq_some hf) hm he
        exact ⟨x, rfl, by rw [hx]⟩

end Pool

/-- `entt::registry` over the component types `ι`. -/
structure Registry (ι : Type u) (Val : ι → Type v) where
  entities : EntityStorage
  pool : ∀ i, Pool (Val i)

namespace Registry

variable {ι : Type u} {Val : ι → Type v}

/-- A registry just constructed. -/
def empty : Registry ι Val := ⟨.empty, fun _ ↦ []⟩

/-- The entities in use. -/
abbrev live (r : Registry ι Val) : List Entity := r.entities.live

/-- `registry.valid(e)`. -/
abbrev Valid (r : Registry ι Val) (e : Entity) : Prop := r.entities.Valid e

/-- `registry.create()`. -/
def create (r : Registry ι Val) : Option (Entity × Registry ι Val) :=
  r.entities.emplace.map fun x ↦ (x.1, { r with entities := x.2 })

/-- `registry.destroy(e)`: out of every pool, then released. -/
def destroy (r : Registry ι Val) (e : Entity) : Registry ι Val :=
  match h : r.entities.packed.findIdx? (· = e) with
  | some p =>
      { entities := r.entities.erase e p (by
          obtain ⟨hp, he, -⟩ := List.findIdx?_eq_some_iff_getElem.mp h
          rw [List.getElem?_eq_getElem hp, of_decide_eq_true he])
        pool := fun i ↦ (r.pool i).remove e }
  | none => r

/-- `registry.clear()`: every pool emptied, every entity released. -/
def clear (r : Registry ι Val) : Registry ι Val := ⟨r.entities.eraseAll, fun _ ↦ []⟩

section Components

variable [DecidableEq ι]

/-- `registry.emplace<T>(e, v)`. -/
def emplace (r : Registry ι Val) (i : ι) (e : Entity) (v : Val i) : Registry ι Val :=
  { r with pool := Function.update r.pool i (r.pool i ++ [(e, v)]) }

/-- `registry.remove<T>(e)`. -/
def remove (r : Registry ι Val) (i : ι) (e : Entity) : Registry ι Val :=
  { r with pool := Function.update r.pool i ((r.pool i).remove e) }

end Components

/-- What the operations keep: the entity storage is sound, and a pool holds at most
one entry for an entity, which is in use. -/
structure Sound (r : Registry ι Val) : Prop where
  entities : r.entities.Sound
  keyed : ∀ i, (r.pool i).Keyed
  live : ∀ i, ∀ x ∈ r.pool i, r.Valid x.1

theorem sound_empty : (empty : Registry ι Val).Sound :=
  ⟨EntityStorage.sound_empty, fun _ ↦ List.nodup_nil, nofun⟩

variable {r r' : Registry ι Val}

/-- What `create` does. -/
theorem create_eq_some {e : Entity} (hr : r.Sound) (h : r.create = some (e, r')) :
    ¬ r.Valid e ∧ r'.live = r.live ++ [e] ∧ r'.pool = r.pool ∧ r'.Sound := by
  obtain ⟨⟨e', s⟩, hs, he⟩ := Option.map_eq_some_iff.mp h
  obtain ⟨rfl, rfl⟩ := Prod.mk.inj he
  obtain ⟨hb, -, -, hlive, hsound⟩ := EntityStorage.emplace_eq_some hr.entities hs
  refine ⟨fun hv ↦ hb (List.mem_map_of_mem hv), hlive, rfl, hsound, hr.keyed, fun i x hx ↦ ?_⟩
  change x.1 ∈ s.live
  rw [hlive]
  exact List.mem_append_left _ (hr.live i x hx)

/-- A registry from which nothing was released can create. -/
theorem exists_create {n : Nat} (hd : r.entities.Dense n) (hn : n < 0xFFFFF) :
    ∃ e r', r.create = some (e, r') ∧ r'.entities.Dense (n + 1) := by
  obtain ⟨s', hs, hd'⟩ := hd.emplace hn
  exact ⟨_, { r with entities := s' }, by rw [create, hs]; rfl, hd'⟩

/-- What `destroy` does. -/
theorem destroy_spec {e : Entity} (hr : r.Sound) (he : r.Valid e) :
    (∀ x, (r.destroy e).Valid x ↔ r.Valid x ∧ x ≠ e) ∧
      (∀ i, (r.destroy e).pool i = (r.pool i).remove e) ∧ (r.destroy e).Sound := by
  have hpos : ∃ p, r.entities.packed.findIdx? (· = e) = some p ∧ p < r.entities.head := by
    obtain ⟨k, hk, hke⟩ := List.mem_take_iff_getElem?.mp he
    cases hp : r.entities.packed.findIdx? (· = e) with
    | none =>
        have := List.findIdx?_eq_none_iff.mp hp e (List.mem_of_getElem? hke)
        simp at this
    | some p =>
        obtain ⟨hlt, hpe, -⟩ := List.findIdx?_eq_some_iff_getElem.mp hp
        have hpe : r.entities.packed[p]? = some e := by
          rw [List.getElem?_eq_getElem hlt, of_decide_eq_true hpe]
        exact ⟨p, rfl, List.nodup_iff_getElem?_inj.mp r.entities.nodup_packed hke hpe ▸ hk⟩
  obtain ⟨p, hp, hlt⟩ := hpos
  unfold destroy
  split
  · rename_i p' hp'
    obtain rfl := Option.some.inj (hp.symm.trans hp')
    obtain ⟨hpl, hpe, -⟩ := List.findIdx?_eq_some_iff_getElem.mp hp
    have hpe : r.entities.packed[p]? = some e := by
      rw [List.getElem?_eq_getElem hpl, of_decide_eq_true hpe]
    refine ⟨fun x ↦ EntityStorage.mem_erase_live hpe hlt hr.entities, fun _ ↦ rfl, ?_⟩
    refine ⟨hr.entities.erase hpe, fun i ↦ (hr.keyed i).remove e, fun i x hx ↦ ?_⟩
    obtain ⟨hx, hne⟩ := (Pool.mem_remove (hr.keyed i)).mp hx
    exact (EntityStorage.mem_erase_live hpe hlt hr.entities).mpr ⟨hr.live i x hx, hne⟩
  · rename_i hn
    rw [hp] at hn
    cases hn

theorem Sound.clear (hr : r.Sound) : r.clear.Sound :=
  ⟨hr.entities.eraseAll, fun _ ↦ List.nodup_nil, nofun⟩

section Components

variable [DecidableEq ι]

@[simp] theorem emplace_entities (r : Registry ι Val) (i : ι) (e : Entity) (v : Val i) :
    (r.emplace i e v).entities = r.entities := rfl

@[simp] theorem emplace_pool_self (r : Registry ι Val) (i : ι) (e : Entity) (v : Val i) :
    (r.emplace i e v).pool i = r.pool i ++ [(e, v)] := Function.update_self ..

theorem emplace_pool_of_ne {i j : ι} (h : j ≠ i) (r : Registry ι Val) (e : Entity) (v : Val i) :
    (r.emplace i e v).pool j = r.pool j := Function.update_of_ne h ..

theorem Sound.emplace (hr : r.Sound) {i : ι} {e : Entity} (he : r.Valid e)
    (hn : ¬ (r.pool i).Contains e) (v : Val i) : (r.emplace i e v).Sound := by
  refine ⟨hr.entities, fun j ↦ ?_, fun j x hx ↦ ?_⟩
  · by_cases hj : j = i
    · subst hj
      rw [emplace_pool_self, Pool.Keyed, List.map_append, List.map_singleton,
        ← List.concat_eq_append]
      exact (hr.keyed j).concat hn
    · rw [emplace_pool_of_ne hj]
      exact hr.keyed j
  · by_cases hj : j = i
    · subst hj
      rw [emplace_pool_self, List.mem_append, List.mem_singleton] at hx
      rcases hx with hx | rfl
      · exact hr.live j x hx
      · exact he
    · rw [emplace_pool_of_ne hj] at hx
      exact hr.live j x hx

theorem Sound.remove (hr : r.Sound) (i : ι) (e : Entity) : (r.remove i e).Sound := by
  refine ⟨hr.entities, fun j ↦ ?_, fun j x hx ↦ ?_⟩
  · change (Function.update r.pool i ((r.pool i).remove e) j).Keyed
    by_cases hj : j = i
    · subst hj
      rw [Function.update_self]
      exact (hr.keyed j).remove e
    · rw [Function.update_of_ne hj]
      exact hr.keyed j
  · change x ∈ Function.update r.pool i ((r.pool i).remove e) j at hx
    by_cases hj : j = i
    · subst hj
      rw [Function.update_self] at hx
      exact hr.live j x ((Pool.mem_remove (hr.keyed j)).mp hx).1
    · rw [Function.update_of_ne hj] at hx
      exact hr.live j x hx

/-! ## Reachable registries -/

/-- An operation on a registry. -/
inductive Op (ι : Type u) (Val : ι → Type v)
  | create
  | destroy (e : Entity)
  | emplace (i : ι) (e : Entity) (v : Val i)
  | remove (i : ι) (e : Entity)

/-- One operation, called as EnTT allows it: on an entity in use, and adding only a
component the entity does not have. -/
def perform (r : Registry ι Val) : Op ι Val → Option (Registry ι Val)
  | .create => r.create.map Prod.snd
  | .destroy e => if r.Valid e then some (r.destroy e) else none
  | .emplace i e v =>
      if r.Valid e ∧ ¬ (r.pool i).Contains e then some (r.emplace i e v) else none
  | .remove i e => if r.Valid e then some (r.remove i e) else none

/-- A sequence of operations. -/
def performAll : List (Op ι Val) → Registry ι Val → Option (Registry ι Val)
  | [], r => some r
  | o :: os, r => (r.perform o).bind (performAll os)

/-- Registries and the operations on them, from a registry just constructed. -/
def system : Lts (Registry ι Val) (Op ι Val) where
  init r := r = empty
  step r o r' := r.perform o = some r'

theorem perform_sound {o : Op ι Val} (h : r.perform o = some r') (hr : r.Sound) : r'.Sound := by
  cases o with
  | create =>
      obtain ⟨⟨e, r''⟩, hc, rfl⟩ := Option.map_eq_some_iff.mp h
      exact (create_eq_some hr hc).2.2.2
  | destroy e =>
      obtain ⟨hv, ⟨⟩⟩ := Option.ite_none_right_eq_some.mp h
      exact (destroy_spec hr hv).2.2
  | emplace i e v =>
      obtain ⟨⟨hv, hn⟩, ⟨⟩⟩ := Option.ite_none_right_eq_some.mp h
      exact hr.emplace hv hn v
  | remove i e =>
      obtain ⟨-, ⟨⟩⟩ := Option.ite_none_right_eq_some.mp h
      exact hr.remove i e

theorem run_of_performAll {os : List (Op ι Val)} (h : performAll os r = some r') :
    system.Run r os r' := by
  induction os generalizing r with
  | nil => exact Option.some.inj h ▸ .nil r
  | cons o os ih =>
      obtain ⟨r₁, h₁, h₂⟩ := Option.bind_eq_some_iff.mp h
      exact .cons h₁ (ih h₂)

/-- Every registry the operations build is sound. -/
theorem sound_of_reachable (h : (system : Lts (Registry ι Val) _).Reachable r) : r.Sound :=
  h.invariant (fun {s} (hs : s = empty) ↦ by rw [hs]; exact sound_empty) perform_sound

end Components

end Registry

end Konative.Entt
