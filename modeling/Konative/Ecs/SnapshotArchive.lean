import Konative.Ecs.SnapshotFile
import Konative.Entt.Registry
import Mathlib.Data.Fintype.Card

/-!
# The snapshot archive

What `entt::snapshot` writes to a cereal binary archive and `entt::snapshot_loader`
reads from one, for the entity chunk and for one chunk per component type.  There
is no framing: a chunk is a count and that many records, and the next chunk starts
where the last record ended.

The loader trusts the counts and the identifiers it reads.  It assigns the in-use
count without comparing it to anything, and it puts a component on any identifier
the entity storage contains, in use or not.  A load that would read outside the
storage's array, which EnTT's release build leaves undefined, is `undefined` here;
a read past the end of the file throws.
-/

universe u v

namespace Konative.Ecs

open Entt

variable {ι : Type u} {Val : ι → Type v}

/-! ## Writing -/

/-- `static_cast<entity_type>(n)` and its archive. -/
def countBytes (n : Nat) : Bytes := Codec.u32.enc (UInt32.ofNat n)

/-- `snapshot.get<Entity>(archive)`: the number of identifiers, how many are in use,
and all of them, the released ones included. -/
def entityChunk (s : EntityStorage) : Bytes :=
  countBytes s.packed.length ++ (countBytes s.head ++ s.packed.flatMap Entity.codec.enc)

/-- One record of a component chunk. -/
def entryBytes {V : Type v} (c : Codec V) (x : Entity × V) : Bytes :=
  Entity.codec.enc x.1 ++ c.enc x.2

/-- `snapshot.get<T>(archive)`: the number of entries and each of them. -/
def componentChunk {V : Type v} (c : Codec V) (l : Pool V) : Bytes :=
  countBytes l.length ++ l.flatMap (entryBytes c)

/-- `write_components_to_snapshot`: one chunk after another. -/
def writeComponentsToSnapshot (codec : ∀ i, Codec (Val i)) (cs : List ι)
    (r : Registry ι Val) : Bytes :=
  cs.flatMap fun i ↦ componentChunk (codec i) (r.pool i)

/-- The serialized registry: the entity chunk, then the components. -/
def snapshotBytes (codec : ∀ i, Codec (Val i)) (cs : List ι) (r : Registry ι Val) : Bytes :=
  entityChunk r.entities ++ writeComponentsToSnapshot codec cs r

/-! ## Loading -/

/-- How a part of a load ends. -/
inductive Loaded (ι : Type u) (Val : ι → Type v)
  | done (r : Registry ι Val) (rest : Bytes)
  /-- The archive threw; the registry is as far as it got. -/
  | threw (r : Registry ι Val)
  /-- EnTT does not define what happens. -/
  | undefined

/-- Go on from where a part ended. -/
def Loaded.andThen (x : Loaded ι Val) (f : Registry ι Val → Bytes → Loaded ι Val) :
    Loaded ι Val :=
  match x with
  | .done r rest => f r rest
  | .threw r => .threw r
  | .undefined => .undefined

@[simp] theorem Loaded.andThen_done (r : Registry ι Val) (rest : Bytes)
    (f : Registry ι Val → Bytes → Loaded ι Val) : (Loaded.done r rest).andThen f = f r rest := rfl

/-- The loop of `loader.get<Entity>`: emplace that many identifiers. -/
def loadIdentifiers : Nat → Registry ι Val → Bytes → Loaded ι Val
  | 0, r, bs => .done r bs
  | n + 1, r, bs =>
      match Entity.codec.dec bs with
      | none => .threw r
      | some (e, bs) =>
          match r.entities.emplaceHint e with
          | none => .undefined
          | some (_, s) => loadIdentifiers n { r with entities := s } bs

/-- `loader.get<Entity>(archive)`. -/
def loadEntities (r : Registry ι Val) (bs : Bytes) : Loaded ι Val :=
  match Codec.u32.dec bs with
  | none => .threw r
  | some (length, bs) =>
      match Codec.u32.dec bs with
      | none => .threw r
      | some (inUse, bs) =>
          (loadIdentifiers length.toNat r bs).andThen fun r bs ↦
            .done { r with entities := r.entities.setFreeList inUse.toNat } bs

/-- The entity a component entry goes to: the one it names when the storage
contains it, and otherwise what `emplace` makes of the name. -/
def placeEntry (s : EntityStorage) (e : Entity) : Option (Entity × EntityStorage) :=
  if s.Contains e then some (e, s) else s.emplaceHint e

section Components

variable [DecidableEq ι]

/-- The loop of `loader.get<T>`. -/
def loadEntries (i : ι) (c : Codec (Val i)) : Nat → Registry ι Val → Bytes → Loaded ι Val
  | 0, r, bs => .done r bs
  | n + 1, r, bs =>
      match Entity.codec.dec bs with
      | none => .threw r
      | some (e, bs) =>
          -- a null identifier stands for an erased entry and has no value
          if e.IsNull then loadEntries i c n r bs
          else
            match placeEntry r.entities e with
            | none => .undefined
            | some (e, s) =>
                match c.dec bs with
                | none => .threw { r with entities := s }
                | some (v, bs) =>
                    loadEntries i c n (Registry.emplace { r with entities := s } i e v) bs

/-- `loader.get<T>(archive)`. -/
def loadComponent (i : ι) (c : Codec (Val i)) (r : Registry ι Val) (bs : Bytes) :
    Loaded ι Val :=
  match Codec.u32.dec bs with
  | none => .threw r
  | some (length, bs) => loadEntries i c length.toNat r bs

/-- `(loader.get<Components>(archive), ...)`. -/
def loadComponents (codec : ∀ i, Codec (Val i)) :
    List ι → Registry ι Val → Bytes → Loaded ι Val
  | [], r, bs => .done r bs
  | i :: cs, r, bs => (loadComponent i (codec i) r bs).andThen (loadComponents codec cs)

/-- The whole payload. -/
def loadSnapshot (codec : ∀ i, Codec (Val i)) (cs : List ι) (r : Registry ι Val) (bs : Bytes) :
    Loaded ι Val :=
  (loadEntities r bs).andThen (loadComponents codec cs)

end Components

/-! ## Counts fit their words -/

/-- A storage has fewer identifiers than a count can say. -/
theorem length_packed_lt (s : EntityStorage) : s.packed.length < UInt32.size := by
  have h := s.nodup.length_le_card
  rw [List.length_map, Fintype.card_fin] at h
  exact Nat.lt_of_le_of_lt h (by decide)

theorem toNat_count {n : Nat} (h : n < UInt32.size) : (UInt32.ofNat n).toNat = n :=
  UInt32.toNat_ofNat_of_lt' h

/-- A pool has no more entries than there are entities. -/
theorem length_pool_le {r : Registry ι Val} (hr : r.Sound) (i : ι) :
    (r.pool i).length ≤ r.entities.packed.length := by
  have hsub : (r.pool i).map Prod.fst ⊆ r.entities.packed := by
    intro e he
    obtain ⟨x, hx, rfl⟩ := List.mem_map.mp he
    exact EntityStorage.mem_packed_of_live (hr.live i x hx)
  have h := ((hr.keyed i).subperm hsub).length_le
  rwa [List.length_map] at h

/-! ## Loading what was written -/

/-- Identifiers with distinct slots none of which is in use load as they are, behind
those in use. -/
theorem loadIdentifiers_own (l : List Entity) :
    ∀ (r : Registry ι Val) (rest : Bytes), r.entities.Sound →
      ((r.live ++ l).map Entity.index).Nodup → (∀ e ∈ l, ¬ e.IsNull ∧ ¬ e.IsTombstone) →
      ∃ s : EntityStorage, s.Sound ∧ s.live = r.live ++ l ∧
        loadIdentifiers l.length r (l.flatMap Entity.codec.enc ++ rest) =
          .done { r with entities := s } rest := by
  induction l with
  | nil =>
      intro r rest hs _ _
      exact ⟨r.entities, hs, (List.append_nil _).symm, rfl⟩
  | cons e l ih =>
      intro r rest hs hnd hreal
      obtain ⟨hn, ht⟩ := hreal e List.mem_cons_self
      have hb : ¬ r.entities.Busy e := by
        rw [List.map_append, List.map_cons] at hnd
        exact fun hm ↦ List.disjoint_of_nodup_append hnd hm List.mem_cons_self
      have hhint := EntityStorage.emplaceHint_eq hs.head_le hn ht hb
      have hlive := EntityStorage.tryEmplace_live hs.head_le hb
      obtain ⟨s, hsound, hslive, hload⟩ :=
        ih { r with entities := r.entities.tryEmplace e } rest (hs.tryEmplace hb hn ht)
          (by
            change (((r.entities.tryEmplace e).live ++ l).map Entity.index).Nodup
            rw [hlive, List.append_assoc]
            exact hnd)
          (fun x hx ↦ hreal x (List.mem_cons_of_mem _ hx))
      refine ⟨s, hsound, ?_, ?_⟩
      · rw [hslive]
        change (r.entities.tryEmplace e).live ++ l = r.live ++ e :: l
        rw [hlive, List.append_assoc]
        rfl
      · rw [List.flatMap_cons, List.append_assoc, List.length_cons, loadIdentifiers,
          Entity.codec.dec_enc]
        simp only [hhint]
        exact hload

/-- The entity chunk of a sound storage, loaded where no entity is in use, brings
back the same identifiers in use in the same order. -/
theorem loadEntities_own {src : EntityStorage} (hsrc : src.Sound) {r : Registry ι Val}
    (hr : r.entities.Sound) (hempty : r.live = []) (rest : Bytes) :
    ∃ s : EntityStorage, s.Sound ∧ s.live = src.live ∧
      loadEntities r (entityChunk src ++ rest) = .done { r with entities := s } rest := by
  obtain ⟨s, hs, hlive, hload⟩ := loadIdentifiers_own src.packed r rest hr
    (by rw [hempty, List.nil_append]; exact src.nodup) hsrc.real
  rw [hempty, List.nil_append] at hlive
  have hlt := length_packed_lt src
  have hheadlt := Nat.lt_of_le_of_lt hsrc.head_le hlt
  have hlen : src.packed.length ≤ s.packed.length := by
    rw [← hlive]
    exact List.length_take_le' _ _
  refine ⟨s.setFreeList src.head, ⟨hsrc.head_le.trans hlen, hs.real⟩, ?_, ?_⟩
  · change s.packed.take src.head = src.packed.take src.head
    conv_rhs => rw [← hlive]
    rw [EntityStorage.live, List.take_take, Nat.min_eq_left]
    have := congrArg List.length hlive
    rw [hs.length_live] at this
    exact this ▸ hsrc.head_le
  · rw [entityChunk, countBytes, countBytes, List.append_assoc, List.append_assoc, loadEntities,
      Codec.u32.dec_enc]
    simp only [Codec.u32.dec_enc, toNat_count hlt, toNat_count hheadlt, hload]
    rfl

section Components

variable [DecidableEq ι] {codec : ∀ i, Codec (Val i)}

/-- Entries on entities the storage contains load as they are, behind those the pool
has. -/
theorem loadEntries_own {i : ι} (c : Codec (Val i)) (l : Pool (Val i)) :
    ∀ (r : Registry ι Val) (rest : Bytes),
      (∀ x ∈ l, r.entities.Contains x.1 ∧ ¬ x.1.IsNull) →
      loadEntries i c l.length r (l.flatMap (entryBytes c) ++ rest) =
        .done { r with pool := Function.update r.pool i (r.pool i ++ l) } rest := by
  induction l with
  | nil =>
      intro r rest _
      rw [List.append_nil, Function.update_eq_self]
      rfl
  | cons x l ih =>
      intro r rest hx
      obtain ⟨hmem, hnull⟩ := hx x List.mem_cons_self
      have hplace : placeEntry r.entities x.1 = some (x.1, r.entities) := if_pos hmem
      rw [List.flatMap_cons, entryBytes, List.append_assoc, List.append_assoc, List.length_cons,
        loadEntries, Entity.codec.dec_enc]
      simp only [if_neg hnull, hplace, c.dec_enc]
      refine (ih (r.emplace i x.1 x.2) rest fun y hy ↦ hx y (List.mem_cons_of_mem _ hy)).trans ?_
      rw [Registry.emplace_pool_self]
      simp only [Registry.emplace, Function.update_idem, List.append_assoc, List.singleton_append]

/-- The chunk of a component of a sound registry, loaded where the storage contains
the same entities and the pool is empty, brings back the pool. -/
theorem loadComponent_own {src : Registry ι Val} (hsrc : src.Sound) (i : ι) {r : Registry ι Val}
    (hlive : r.live = src.live) (hpool : r.pool i = []) (rest : Bytes) :
    loadComponent i (codec i) r (componentChunk (codec i) (src.pool i) ++ rest) =
      .done { r with pool := Function.update r.pool i (src.pool i) } rest := by
  have hlt := Nat.lt_of_le_of_lt (length_pool_le hsrc i) (length_packed_lt src.entities)
  have hx : ∀ x ∈ src.pool i, r.entities.Contains x.1 ∧ ¬ x.1.IsNull := by
    intro x hx
    have hv : x.1 ∈ src.live := hsrc.live i x hx
    have hr : x.1 ∈ r.live := hlive ▸ hv
    constructor
    · exact EntityStorage.mem_packed_of_live hr
    · exact (hsrc.entities.real _ (EntityStorage.mem_packed_of_live hv)).1
  rw [componentChunk, countBytes, List.append_assoc, loadComponent, Codec.u32.dec_enc]
  simp only [toNat_count hlt]
  rw [loadEntries_own _ (src.pool i) r rest hx, hpool, List.nil_append]

/-- All the component chunks, for distinct component types. -/
theorem loadComponents_own {src : Registry ι Val} (hsrc : src.Sound) (rest : Bytes) :
    ∀ (cs : List ι), cs.Nodup → ∀ (r : Registry ι Val), r.live = src.live →
      (∀ i ∈ cs, r.pool i = []) →
      loadComponents codec cs r (writeComponentsToSnapshot codec cs src ++ rest) =
        .done { r with pool := fun i ↦ if i ∈ cs then src.pool i else r.pool i } rest := by
  intro cs
  induction cs with
  | nil =>
      intro _ r _ _
      simp [loadComponents, writeComponentsToSnapshot]
  | cons i cs ih =>
      intro hnd r hlive hpool
      obtain ⟨hi, hnd⟩ := List.nodup_cons.mp hnd
      have hne : ∀ j ∈ cs, j ≠ i := fun j hj he ↦ hi (he ▸ hj)
      rw [writeComponentsToSnapshot, List.flatMap_cons, List.append_assoc, loadComponents,
        loadComponent_own hsrc i hlive (hpool i List.mem_cons_self), Loaded.andThen_done]
      refine (ih hnd { r with pool := Function.update r.pool i (src.pool i) } hlive
        fun j hj ↦ ?_).trans ?_
      · change Function.update r.pool i (src.pool i) j = []
        rw [Function.update_of_ne (hne j hj), hpool j (List.mem_cons_of_mem _ hj)]
      · congr 2
        funext j
        by_cases hj : j ∈ cs
        · simp [hj]
        · by_cases hji : j = i
          · subst hji
            simp [hj]
          · simp [hj, hji]

/-- A snapshot of a sound registry, loaded into one with no entity in use and empty
pools, brings back the entities in use and the pools of the listed components. -/
theorem loadSnapshot_own (codec : ∀ i, Codec (Val i)) {src : Registry ι Val} (hsrc : src.Sound)
    {cs : List ι} (hcs : cs.Nodup) {r : Registry ι Val} (hr : r.entities.Sound) (hlive : r.live = [])
    (hpool : ∀ i, r.pool i = []) (rest : Bytes) :
    ∃ s : EntityStorage, s.Sound ∧ s.live = src.live ∧
      loadSnapshot codec cs r (snapshotBytes codec cs src ++ rest) =
        .done ⟨s, fun i ↦ if i ∈ cs then src.pool i else []⟩ rest := by
  obtain ⟨s, hs, hslive, hload⟩ := loadEntities_own hsrc.entities hr hlive
    (writeComponentsToSnapshot codec cs src ++ rest)
  refine ⟨s, hs, hslive, ?_⟩
  rw [snapshotBytes, List.append_assoc, loadSnapshot, hload, Loaded.andThen_done]
  refine (loadComponents_own hsrc rest cs hcs { r with entities := s } hslive
    fun i _ ↦ hpool i).trans ?_
  simp only [hpool]

end Components

end Konative.Ecs
