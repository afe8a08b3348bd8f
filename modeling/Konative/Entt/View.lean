import Konative.Entt.Registry

/-!
# Views

A view iterates over the entities that have the component types it names.  Only the
ways the application iterates are here: writing through the references a view hands
out, which changes values and moves nothing, and asking a view of two types for its
first entity.
-/

universe u v

namespace Konative.Entt

namespace Pool

variable {V : Type v}

/-- The entries with their values replaced, in place. -/
def patch (l : Pool V) (f : Entity → V → V) : Pool V := l.map fun x ↦ (x.1, f x.1 x.2)

@[simp] theorem keys_patch (l : Pool V) (f : Entity → V → V) :
    (l.patch f).map Prod.fst = l.map Prod.fst := by
  rw [patch, List.map_map]
  rfl

@[simp] theorem patch_id (l : Pool V) : l.patch (fun _ v ↦ v) = l := List.map_id l

@[simp] theorem patch_patch (l : Pool V) (f g : Entity → V → V) :
    (l.patch f).patch g = l.patch fun e v ↦ g e (f e v) := by
  rw [patch, patch, List.map_map]
  rfl

@[simp] theorem length_patch (l : Pool V) (f : Entity → V → V) : (l.patch f).length = l.length :=
  List.length_map ..

@[simp] theorem patch_singleton (e : Entity) (v : V) (f : Entity → V → V) :
    Pool.patch [(e, v)] f = [(e, f e v)] := rfl

@[simp] theorem get?_singleton (e : Entity) (v : V) : Pool.get? [(e, v)] e = some v := by
  simp [get?]

/-- Looking a patched entry up is patching what is looked up. -/
theorem get?_patch (l : Pool V) (f : Entity → V → V) (e : Entity) :
    (l.patch f).get? e = (l.get? e).map (f e) := by
  induction l with
  | nil => rfl
  | cons x l ih =>
      by_cases hx : x.1 = e
      · subst hx
        simp [patch, get?]
      · change ((((x.1, f x.1 x.2) :: Pool.patch l f).find? fun y ↦ y.1 = e).map Prod.snd) =
          (((x :: l).find? fun y ↦ y.1 = e).map Prod.snd).map (f e)
        rw [List.find?_cons_of_neg (by simpa using hx), List.find?_cons_of_neg (by simpa using hx)]
        exact ih

end Pool

namespace Registry

variable {ι : Type u} {Val : ι → Type v}

/-- `all_of<T>(e)`. -/
abbrev Has (r : Registry ι Val) (i : ι) (e : Entity) : Prop := (r.pool i).Contains e

/-- An entity just created has no component. -/
theorem not_has_of_create {r r' : Registry ι Val} (hr : r.Sound) {e : Entity}
    (h : r.create = some (e, r')) (i : ι) : ¬ r'.Has i e := by
  obtain ⟨hnew, -, hpool, -⟩ := create_eq_some hr h
  intro hm
  rw [Has, hpool] at hm
  obtain ⟨x, hx, rfl⟩ := List.mem_map.mp hm
  exact hnew (hr.live i x hx)

/-- The entities of a pool, in the order of its array. -/
def keys (r : Registry ι Val) (i : ι) : List Entity := (r.pool i).map Prod.fst

/-- `registry.view<T, U>().front()`: the shorter array leads, the first one when they
are equally long, and is walked from its end. -/
def viewFront (r : Registry ι Val) (i j : ι) : Option Entity :=
  if (r.keys j).length < (r.keys i).length then (r.keys j).reverse.find? (· ∈ r.keys i)
  else (r.keys i).reverse.find? (· ∈ r.keys j)

section Components

variable [DecidableEq ι]

/-- Write through the references to the components of type `i`. -/
def patch (r : Registry ι Val) (i : ι) (f : Entity → Val i → Val i) : Registry ι Val :=
  { r with pool := Function.update r.pool i ((r.pool i).patch f) }

variable {r : Registry ι Val} {i j : ι} {f : Entity → Val i → Val i}

@[simp] theorem patch_pool_self : (r.patch i f).pool i = (r.pool i).patch f :=
  Function.update_self ..

theorem patch_pool_of_ne (h : j ≠ i) : (r.patch i f).pool j = r.pool j :=
  Function.update_of_ne h ..

@[simp] theorem patch_id (r : Registry ι Val) (i : ι) : r.patch i (fun _ v ↦ v) = r := by
  rw [patch, Pool.patch_id, Function.update_eq_self]

@[simp] theorem patch_patch (r : Registry ι Val) (i : ι) (f g : Entity → Val i → Val i) :
    (r.patch i f).patch i g = r.patch i fun e v ↦ g e (f e v) := by
  rw [patch, patch_pool_self, Pool.patch_patch, patch, patch, Function.update_idem]

/-- Writing through references gives and takes no component. -/
theorem keys_patch (j : ι) : (r.patch i f).keys j = r.keys j := by
  by_cases hj : j = i
  · subst hj
    rw [keys, patch_pool_self, Pool.keys_patch, keys]
  · rw [keys, patch_pool_of_ne hj, keys]

theorem Sound.patch (hr : r.Sound) (i : ι) (f : Entity → Val i → Val i) : (r.patch i f).Sound := by
  refine ⟨hr.entities, fun j ↦ ?_, fun j x hx ↦ ?_⟩
  · have hk := hr.keyed j
    rwa [Pool.Keyed, ← keys, ← keys_patch (f := f) j] at hk
  · have hm : x.1 ∈ (r.patch i f).keys j := List.mem_map_of_mem hx
    rw [keys_patch] at hm
    obtain ⟨y, hy, he⟩ := List.mem_map.mp hm
    exact he ▸ hr.live j y hy

/-- An entity just created can be given any component. -/
theorem Sound.emplace_created {r' : Registry ι Val} (hr : r.Sound) {e : Entity}
    (hc : r.create = some (e, r')) (i : ι) (v : Val i) : (r'.emplace i e v).Sound := by
  obtain ⟨-, hlive, -, hsound⟩ := create_eq_some hr hc
  have hvalid : r'.Valid e := by
    change e ∈ r'.live
    rw [hlive]
    exact List.mem_append_right _ List.mem_cons_self
  exact hsound.emplace hvalid (not_has_of_create hr hc i) v

end Components

end Registry

end Konative.Entt
