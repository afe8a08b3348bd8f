import Konative.Ecs.SnapshotRead

/-!
# Restoring a file nobody vouches for

`read_snapshot_file` turns every exception of the archive into an error and clears
the registry.  What it does not see is a file that decodes: the loader takes the
in-use count and the identifiers as they come, so such a file can be read as `ok`
into a registry that contradicts itself.

This file follows the loader through any bytes at all.  The framing of an archive does
not depend on the registry it is loaded into, so an archive is first taken apart into the
identifiers it names (`parseArchive`); where each of those lands is then a matter of the
entity storage alone (`landIdentifiers`, `landEntries`), and what becomes of the load is
read off there (`safeRestore_readArchive`).
-/

universe u v

namespace Konative.Ecs

open Entt

variable {ι : Type u} {Val : ι → Type v}

/-! ## What a safe restore is -/

/-- The registry holds `n` entities, and every stored component belongs to one of
them, at most once for each type. -/
structure Consistent (r : Registry ι Val) (n : Nat) : Prop where
  length : r.live.length = n
  keyed : ∀ i, (r.pool i).Keyed
  live : ∀ i, ∀ e ∈ (r.pool i).map Prod.fst, r.Valid e

/-- The call returns, with an error and nothing in the registry or with a consistent
registry. -/
def SafeRestore : ReadOutcome ι Val → Prop
  | .returned (.error _) r => r.live = [] ∧ ∀ i, r.pool i = []
  | .returned (.ok n) r => Consistent r n
  | .undefined => False

/-! ## The identifiers of an archive -/

/-- The identifiers of a chunk that announces `n`, and what is behind them unless
the file ends first. -/
def parseIdentifiers : Nat → Bytes → List Entity × Option Bytes
  | 0, bs => ([], some bs)
  | n + 1, bs =>
      match Entity.codec.dec bs with
      | none => ([], none)
      | some (e, bs) => (e :: (parseIdentifiers n bs).1, (parseIdentifiers n bs).2)

/-- The identifiers with a value of a component chunk that announces `n`, and what
is behind them.  An identifier whose value is cut off is still one the loader
places. -/
def parseEntries (i : ι) (c : Codec (Val i)) : Nat → Bytes → List (ι × Entity) × Option Bytes
  | 0, bs => ([], some bs)
  | n + 1, bs =>
      match Entity.codec.dec bs with
      | none => ([], none)
      | some (e, bs) =>
          if e.IsNull then parseEntries i c n bs
          else
            match c.dec bs with
            | none => ([(i, e)], none)
            | some (_, bs) => ((i, e) :: (parseEntries i c n bs).1, (parseEntries i c n bs).2)

/-- The identifiers of all the component chunks. -/
def parseComponents (codec : ∀ i, Codec (Val i)) :
    List ι → Bytes → List (ι × Entity) × Option Bytes
  | [], bs => ([], some bs)
  | i :: cs, bs =>
      match Codec.u32.dec bs with
      | none => ([], none)
      | some (length, bs) =>
          match parseEntries i (codec i) length.toNat bs with
          | (entries, none) => (entries, none)
          | (entries, some bs) =>
              (entries ++ (parseComponents codec cs bs).1, (parseComponents codec cs bs).2)

/-- The identifiers an archive names. -/
structure Archive (ι : Type u) where
  /-- The entity chunk's. -/
  identifiers : List Entity
  /-- The in-use count and the component chunks' entries, when the entity chunk is
  complete, and whether those are. -/
  tail : Option (Nat × List (ι × Entity) × Bool)

/-- Take an archive apart. -/
def parseArchive (codec : ∀ i, Codec (Val i)) (cs : List ι) (bs : Bytes) : Archive ι :=
  match Codec.u32.dec bs with
  | none => ⟨[], none⟩
  | some (length, bs) =>
      match Codec.u32.dec bs with
      | none => ⟨[], none⟩
      | some (inUse, bs) =>
          match parseIdentifiers length.toNat bs with
          | (identifiers, none) => ⟨identifiers, none⟩
          | (identifiers, some bs) =>
              ⟨identifiers, some (inUse.toNat, (parseComponents codec cs bs).1,
                (parseComponents codec cs bs).2.isSome)⟩

/-! ## Where identifiers land -/

/-- The storage after the identifiers of the entity chunk, unless they run out. -/
def landIdentifiers : List Entity → EntityStorage → Option EntityStorage
  | [], s => some s
  | e :: l, s => (s.emplaceHint e).bind fun x ↦ landIdentifiers l x.2

/-- The entity each entry's component is put on, and the storage afterwards. -/
def landEntries : List (ι × Entity) → EntityStorage → Option (List (ι × Entity) × EntityStorage)
  | [], s => some ([], s)
  | (i, e) :: l, s =>
      (placeEntry s e).bind fun x ↦ (landEntries l x.2).map fun y ↦ ((i, x.1) :: y.1, y.2)

/-- The entities of the entries of type `i`. -/
def entitiesOf [DecidableEq ι] (i : ι) (entries : List (ι × Entity)) : List Entity :=
  (entries.filter fun x ↦ x.1 = i).map Prod.snd

/-- The component entries land on entities in use, for each type on different ones, in a
storage that `inUse` fits. -/
def EntriesSettle [DecidableEq ι] (s : EntityStorage) (entries : List (ι × Entity))
    (complete : Bool) : Prop :=
  match landEntries entries s with
  | none => False
  | some (landed, s') =>
      complete = true → ∀ i, (entitiesOf i landed).Nodup ∧ ∀ e ∈ entitiesOf i landed, s'.Valid e

/-- The identifiers of an archive find room, and its entries settle. -/
def ArchiveSettles [DecidableEq ι] (s : EntityStorage) (a : Archive ι) : Prop :=
  match landIdentifiers a.identifiers s with
  | none => False
  | some s =>
      match a.tail with
      | none => True
      | some (inUse, entries, complete) =>
          inUse ≤ s.packed.length ∧ EntriesSettle (s.setFreeList inUse) entries complete

/-! ## The loader follows the identifiers -/

/-- The storage operations keep a storage sound. -/
theorem landIdentifiers_sound {l : List Entity} {s s' : EntityStorage} (hs : s.Sound)
    (h : landIdentifiers l s = some s') : s'.Sound := by
  induction l generalizing s with
  | nil => exact Option.some.inj h ▸ hs
  | cons e l ih =>
      obtain ⟨⟨e', s₁⟩, h₁, h₂⟩ := Option.bind_eq_some_iff.mp h
      exact ih (EntityStorage.emplaceHint_eq_some hs h₁).2.2.2.2 h₂

theorem placeEntry_sound {e e' : Entity} {s s' : EntityStorage} (hs : s.Sound)
    (h : placeEntry s e = some (e', s')) : s'.Sound := by
  unfold placeEntry at h
  split at h
  · obtain ⟨-, rfl⟩ := Prod.mk.inj (Option.some.inj h)
    exact hs
  · exact (EntityStorage.emplaceHint_eq_some hs h).2.2.2.2

theorem landEntries_sound {l l' : List (ι × Entity)} {s s' : EntityStorage} (hs : s.Sound)
    (h : landEntries l s = some (l', s')) : s'.Sound := by
  induction l generalizing s l' with
  | nil =>
      obtain ⟨-, rfl⟩ := Prod.mk.inj (Option.some.inj h)
      exact hs
  | cons x l ih =>
      obtain ⟨⟨e', s₁⟩, h₁, h₂⟩ := Option.bind_eq_some_iff.mp h
      obtain ⟨⟨l₁, s₂⟩, h₃, h₄⟩ := Option.map_eq_some_iff.mp h₂
      obtain ⟨-, rfl⟩ := Prod.mk.inj h₄
      exact ih (placeEntry_sound hs h₁) h₃

/-- Where a `head` past the end leaves the storage: nothing can be emplaced. -/
theorem landEntries_of_head_gt {l l' : List (ι × Entity)} {s s' : EntityStorage}
    (hs : s.packed.length < s.head) (h : landEntries l s = some (l', s')) : s' = s := by
  induction l generalizing l' with
  | nil =>
      obtain ⟨-, rfl⟩ := Prod.mk.inj (Option.some.inj h)
      rfl
  | cons x l ih =>
      obtain ⟨⟨e', s₁⟩, h₁, h₂⟩ := Option.bind_eq_some_iff.mp h
      obtain ⟨⟨l₁, s₂⟩, h₃, h₄⟩ := Option.map_eq_some_iff.mp h₂
      obtain ⟨-, rfl⟩ := Prod.mk.inj h₄
      unfold placeEntry at h₁
      split at h₁
      · obtain ⟨-, rfl⟩ := Prod.mk.inj (Option.some.inj h₁)
        exact ih h₃
      · rw [EntityStorage.emplaceHint, if_neg (by omega), EntityStorage.emplace,
          if_neg (by omega), if_neg (by omega)] at h₁
        cases h₁

theorem landEntries_append (l₁ l₂ : List (ι × Entity)) (s : EntityStorage) :
    landEntries (l₁ ++ l₂) s = (landEntries l₁ s).bind fun x ↦
      (landEntries l₂ x.2).map fun y ↦ (x.1 ++ y.1, y.2) := by
  induction l₁ generalizing s with
  | nil =>
      simp only [List.nil_append, landEntries, Option.bind_some]
      exact Option.map_id'.symm
  | cons x l₁ ih =>
      obtain ⟨i, e⟩ := x
      simp only [List.cons_append, landEntries, ih]
      cases placeEntry s e with
      | none => rfl
      | some x =>
          simp only [Option.bind_some]
          cases landEntries l₁ x.2 with
          | none => rfl
          | some y =>
              simp only [Option.bind_some, Option.map_some, Option.map_map]
              rfl

/-- The entity chunk's loop follows its identifiers. -/
theorem loadIdentifiers_eq (n : Nat) (r : Registry ι Val) (bs : Bytes) :
    loadIdentifiers n r bs =
      match landIdentifiers (parseIdentifiers n bs).1 r.entities with
      | none => .undefined
      | some s =>
          match (parseIdentifiers n bs).2 with
          | none => .threw { r with entities := s }
          | some rest => .done { r with entities := s } rest := by
  induction n generalizing r bs with
  | zero => rfl
  | succ n ih =>
      rw [loadIdentifiers, parseIdentifiers]
      cases Entity.codec.dec bs with
      | none => rfl
      | some x =>
          obtain ⟨e, bs⟩ := x
          simp only [landIdentifiers]
          cases r.entities.emplaceHint e with
          | none => rfl
          | some y =>
              simp only [Option.bind_some]
              exact ih { r with entities := y.2 } bs

section Components

variable [DecidableEq ι]

theorem entitiesOf_append (i : ι) (l l' : List (ι × Entity)) :
    entitiesOf i (l ++ l') = entitiesOf i l ++ entitiesOf i l' := by
  simp [entitiesOf]

/-- A part of a load does with the component entries what `landEntries` says, and
ends behind them or throws where the file ends. -/
def Follows (r : Registry ι Val) (entries : List (ι × Entity)) (rest : Option Bytes)
    (o : Loaded ι Val) : Prop :=
  match landEntries entries r.entities with
  | none => o = .undefined
  | some (landed, s) =>
      match rest with
      | none => ∃ r', o = .threw r' ∧ r'.entities = s
      | some rest => ∃ r', o = .done r' rest ∧ r'.entities = s ∧
          ∀ i, (r'.pool i).map Prod.fst = (r.pool i).map Prod.fst ++ entitiesOf i landed

/-- One part after another. -/
theorem Follows.andThen {r : Registry ι Val} {entries entries' : List (ι × Entity)} {bs : Bytes}
    {rest : Option Bytes} {o : Loaded ι Val} {f : Registry ι Val → Bytes → Loaded ι Val}
    (h : Follows r entries (some bs) o) (hf : ∀ r, Follows r entries' rest (f r bs)) :
    Follows r (entries ++ entries') rest (o.andThen f) := by
  unfold Follows at h ⊢
  rw [landEntries_append]
  cases hl : landEntries entries r.entities with
  | none =>
      rw [hl] at h
      simp only at h
      rw [h]
      rfl
  | some x =>
      obtain ⟨landed, s⟩ := x
      rw [hl] at h
      obtain ⟨r', rfl, rfl, hkeys⟩ := h
      have hf := hf r'
      unfold Follows at hf
      simp only [Option.bind_some]
      cases hl' : landEntries entries' r'.entities with
      | none =>
          rw [hl'] at hf
          exact hf
      | some y =>
          obtain ⟨landed', s'⟩ := y
          rw [hl'] at hf
          cases rest with
          | none => exact hf
          | some rest =>
              obtain ⟨r'', ho, hs, hkeys'⟩ := hf
              refine ⟨r'', ho, hs, fun i ↦ ?_⟩
              rw [hkeys', hkeys, entitiesOf_append, List.append_assoc]

/-- A load that follows its entries follows them behind one that was placed. -/
theorem Follows.cons {i : ι} {e e' : Entity} {v : Val i} {r : Registry ι Val} {s : EntityStorage}
    {entries : List (ι × Entity)} {rest : Option Bytes} {loaded : Loaded ι Val}
    (hp : placeEntry r.entities e = some (e', s))
    (h : Follows (Registry.emplace { r with entities := s } i e' v) entries rest loaded) :
    Follows r ((i, e) :: entries) rest loaded := by
  unfold Follows at h ⊢
  simp only [landEntries, hp, Option.bind_some]
  cases hl : landEntries entries s with
  | none =>
      rw [Registry.emplace_entities, hl] at h
      exact h
  | some q =>
      obtain ⟨landed, s'⟩ := q
      rw [Registry.emplace_entities, hl] at h
      simp only [Option.map_some]
      cases rest with
      | none => exact h
      | some rest =>
          obtain ⟨r', ho, hs, hkeys⟩ := h
          refine ⟨r', ho, hs, fun j ↦ ?_⟩
          rw [hkeys]
          by_cases hj : j = i
          · subst hj
            rw [Registry.emplace_pool_self]
            simp [entitiesOf]
          · rw [Registry.emplace_pool_of_ne hj]
            simp [entitiesOf, Ne.symm hj]

/-- A component chunk's loop follows its entries. -/
theorem loadEntries_follows (i : ι) (c : Codec (Val i)) (n : Nat) (r : Registry ι Val)
    (bs : Bytes) :
    Follows r (parseEntries i c n bs).1 (parseEntries i c n bs).2 (loadEntries i c n r bs) := by
  induction n generalizing r bs with
  | zero => exact ⟨r, rfl, rfl, fun i ↦ (List.append_nil _).symm⟩
  | succ n ih =>
      rw [loadEntries, parseEntries]
      cases Entity.codec.dec bs with
      | none => exact ⟨r, rfl, rfl⟩
      | some x =>
          obtain ⟨e, bs⟩ := x
          by_cases hnull : e.IsNull
          · simp only [if_pos hnull]
            exact ih r bs
          · simp only [if_neg hnull]
            cases hp : placeEntry r.entities e with
            | none =>
                cases c.dec bs with
                | none => simp [Follows, landEntries, hp]
                | some y => simp [Follows, landEntries, hp]
            | some p =>
                obtain ⟨e', s⟩ := p
                cases hc : c.dec bs with
                | none => simp [Follows, landEntries, hp]
                | some y =>
                    exact (ih (Registry.emplace { r with entities := s } i e' y.1) y.2).cons hp

/-- The component chunks follow their entries. -/
theorem loadComponents_follows (codec : ∀ i, Codec (Val i)) (cs : List ι) (r : Registry ι Val)
    (bs : Bytes) :
    Follows r (parseComponents codec cs bs).1 (parseComponents codec cs bs).2
      (loadComponents codec cs r bs) := by
  induction cs generalizing r bs with
  | nil => exact ⟨r, rfl, rfl, fun i ↦ (List.append_nil _).symm⟩
  | cons i cs ih =>
      rw [loadComponents, parseComponents, loadComponent]
      cases Codec.u32.dec bs with
      | none => exact ⟨r, rfl, rfl⟩
      | some x =>
          obtain ⟨length, bs⟩ := x
          have h := loadEntries_follows i (codec i) length.toNat r bs
          simp only
          cases hp : parseEntries i (codec i) length.toNat bs with
          | mk entries rest =>
              rw [hp] at h
              cases rest with
              | none =>
                  unfold Follows at h ⊢
                  simp only at h ⊢
                  cases hl : landEntries entries r.entities with
                  | none =>
                      rw [hl] at h
                      simp only at h ⊢
                      rw [h]
                      rfl
                  | some y =>
                      rw [hl] at h
                      obtain ⟨r', ho, hs⟩ := h
                      exact ⟨r', by rw [ho]; rfl, hs⟩
              | some bs => exact h.andThen fun r ↦ ih r bs

/-! ## When a restore is safe -/

variable {codec : ∀ i, Codec (Val i)} {cs : List ι} {r : Registry ι Val}

/-- A load that threw where every identifier in use is in the array is cleared. -/
theorem safeRestore_of_threw {bs : Bytes} {r' : Registry ι Val}
    (h : loadSnapshot codec cs r bs = .threw r')
    (hle : r'.entities.head ≤ r'.entities.packed.length) :
    SafeRestore (readArchive codec cs r bs) := by
  rw [readArchive, h]
  simp only [clearRegistry, if_pos hle]
  exact ⟨rfl, fun _ ↦ rfl⟩

/-- A load that came to its end is safe exactly if each pool has live keys, none twice. -/
private theorem safeRestore_of_done {bs : Bytes} {r' : Registry ι Val} {rest : Bytes}
    {landed : List (ι × Entity)} (h : loadSnapshot codec cs r bs = .done r' rest)
    (hs' : r'.entities.Sound) (hkeys : ∀ i, (r'.pool i).map Prod.fst = entitiesOf i landed) :
    SafeRestore (readArchive codec cs r bs) ↔
      ∀ i, (entitiesOf i landed).Nodup ∧ ∀ e ∈ entitiesOf i landed, r'.entities.Valid e := by
  simp only [readArchive, h, SafeRestore]
  constructor
  · rintro ⟨-, hkeyed, hlive⟩ i
    exact ⟨hkeys i ▸ hkeyed i, fun e he ↦ hlive i e (hkeys i ▸ he)⟩
  · intro hall
    refine ⟨hs'.length_live, fun i ↦ ?_, fun i e he ↦ ?_⟩
    · rw [Pool.Keyed, hkeys]
      exact (hall i).1
    · rw [hkeys] at he
      exact (hall i).2 e he

/-- With a count past the end of the array, nothing that follows is safe. -/
private theorem not_safeRestore_of_head_gt {bs : Bytes} {r' : Registry ι Val}
    (h : loadSnapshot codec cs r bs = .threw r' ∨
      ∃ rest, loadSnapshot codec cs r bs = .done r' rest)
    (hgt : ¬ r'.entities.head ≤ r'.entities.packed.length) :
    ¬ SafeRestore (readArchive codec cs r bs) := by
  intro hsafe
  rcases h with h | ⟨rest, h⟩
  · simp only [readArchive, h, clearRegistry, if_neg hgt, SafeRestore] at hsafe
  · simp only [readArchive, h, SafeRestore] at hsafe
    have hlen := hsafe.length
    have hlt := List.length_take_le' r'.entities.head r'.entities.packed
    change (r'.entities.packed.take r'.entities.head).length = r'.entities.head at hlen
    rw [hlen] at hlt
    exact hgt hlt

/-- What the components' part of a load decides. -/
private theorem safeRestore_of_follows {bs : Bytes} {s : EntityStorage}
    {entries : List (ι × Entity)} {rest : Option Bytes} {inUse : Nat} (hs : s.Sound)
    (hpool : ∀ i, r.pool i = [])
    (h : Follows { r with entities := s.setFreeList inUse } entries rest
      (loadSnapshot codec cs r bs)) :
    SafeRestore (readArchive codec cs r bs) ↔
      inUse ≤ s.packed.length ∧ EntriesSettle (s.setFreeList inUse) entries rest.isSome := by
  unfold Follows at h
  unfold EntriesSettle
  cases hl : landEntries entries (s.setFreeList inUse) with
  | none =>
    rw [hl] at h
    simp only at h
    simp [readArchive, h, SafeRestore]
  | some x =>
    obtain ⟨landed, s'⟩ := x
    rw [hl] at h
    simp only
    by_cases hle : inUse ≤ s.packed.length
    · have hs' : s'.Sound := landEntries_sound (s := s.setFreeList inUse) ⟨hle, hs.real⟩ hl
      cases rest with
      | none =>
          obtain ⟨r', ho, rfl⟩ := h
          exact iff_of_true (safeRestore_of_threw ho hs'.head_le)
            ⟨hle, fun h ↦ absurd h Bool.false_ne_true⟩
      | some rest =>
          obtain ⟨r', ho, rfl, hkeys⟩ := h
          have hkeys : ∀ i, (r'.pool i).map Prod.fst = entitiesOf i landed := by
            intro i
            rw [hkeys]
            simp [hpool]
          rw [safeRestore_of_done ho hs' hkeys]
          simp only [hle, true_and, Option.isSome_some, forall_true_left]
    · -- the count stays past the array, whatever is landed
      obtain rfl : s' = s.setFreeList inUse :=
        landEntries_of_head_gt (Nat.lt_of_not_le hle) hl
      refine iff_of_false ?_ fun hh ↦ hle hh.1
      cases rest with
      | none =>
          obtain ⟨r', ho, hr'⟩ := h
          exact not_safeRestore_of_head_gt (.inl ho) (by rw [hr']; exact hle)
      | some rest =>
          obtain ⟨r', ho, hr', -⟩ := h
          exact not_safeRestore_of_head_gt (.inr ⟨rest, ho⟩) (by rw [hr']; exact hle)

/-- The archive behind a good header is restored safely if and only if it settles. -/
theorem safeRestore_readArchive (hr : Vacant r) (bs : Bytes) :
    SafeRestore (readArchive codec cs r bs) ↔
      ArchiveSettles r.entities (parseArchive codec cs bs) := by
  have hthrew : ∀ {bs : Bytes}, loadSnapshot codec cs r bs = .threw r →
      SafeRestore (readArchive codec cs r bs) :=
    fun h ↦ safeRestore_of_threw h hr.entities.head_le
  unfold parseArchive
  cases h₁ : Codec.u32.dec bs with
  | none => exact iff_of_true (hthrew (by simp [loadSnapshot, loadEntities, h₁]; rfl)) trivial
  | some x =>
      obtain ⟨length, bs₁⟩ := x
      simp only
      cases h₂ : Codec.u32.dec bs₁ with
      | none =>
          exact iff_of_true (hthrew (by simp [loadSnapshot, loadEntities, h₁, h₂]; rfl)) trivial
      | some y =>
          obtain ⟨inUse, bs₂⟩ := y
          have hload := loadIdentifiers_eq length.toNat r bs₂
          have hsnap : loadSnapshot codec cs r bs =
              ((loadIdentifiers length.toNat r bs₂).andThen fun r bs ↦
                .done { r with entities := r.entities.setFreeList inUse.toNat } bs).andThen
                  (loadComponents codec cs) := by
            simp [loadSnapshot, loadEntities, h₁, h₂]
          simp only
          cases hp : parseIdentifiers length.toNat bs₂ with
          | mk identifiers rest =>
              rw [hp] at hload
              unfold ArchiveSettles
              cases hl : landIdentifiers identifiers r.entities with
              | none =>
                  simp only [hl] at hload
                  rw [hload] at hsnap
                  have hu : loadSnapshot codec cs r bs = .undefined := hsnap
                  cases rest with
                  | none => simp [hl, readArchive, hu, SafeRestore]
                  | some rest => simp [hl, readArchive, hu, SafeRestore]
              | some s =>
                  have hs := landIdentifiers_sound hr.entities hl
                  simp only [hl] at hload
                  cases rest with
                  | none =>
                      rw [hload] at hsnap
                      have ht : loadSnapshot codec cs r bs =
                          .threw { r with entities := s } := hsnap
                      simp only [hl]
                      exact iff_of_true (safeRestore_of_threw ht hs.head_le) trivial
                  | some bs₃ =>
                      rw [hload] at hsnap
                      simp only [hl]
                      refine safeRestore_of_follows hs hr.pool ?_
                      rw [hsnap]
                      exact loadComponents_follows codec cs _ bs₃

end Components

end Konative.Ecs
