import Konative.Entt.Entity
import Konative.Lib.Exchange

/-!
# EnTT's entity storage

The storage of identifiers behind a registry, as EnTT 3.13 lays it out: a packed
array in which the first `head` identifiers are in use and the others are
released, each already carrying the version it will be handed out with.  An
identifier's slot is found by its index, and no two identifiers share a slot.

Four operations change it.  `emplace` hands out an identifier, `emplaceHint` a
given one where its slot allows, `erase` releases one, and `setFreeList` is the
raw assignment of `head` that only the snapshot loader makes.  The last checks
nothing; a storage whose `head` is past the end of the array is therefore a value
of the type, and the operations EnTT leaves undefined on it return `none`.
-/

namespace Konative.Entt

/-- `entt::storage<entt::entity>`. -/
structure EntityStorage where
  packed : List Entity
  /-- `free_list()`: how many identifiers are in use. -/
  head : Nat
  /-- The first index `next` has not tried. -/
  placeholder : Nat
  nodup : (packed.map Entity.index).Nodup

namespace EntityStorage

/-- The storage of a registry just constructed. -/
def empty : EntityStorage := ⟨[], 0, 0, List.nodup_nil⟩

/-- The identifiers in use. -/
def live (s : EntityStorage) : List Entity := s.packed.take s.head

/-- `contains(e)`: the slot exists and has this version, in use or not. -/
abbrev Contains (s : EntityStorage) (e : Entity) : Prop := e ∈ s.packed

/-- `registry.valid(e)`. -/
abbrev Valid (s : EntityStorage) (e : Entity) : Prop := e ∈ s.live

/-- `index(e) < free_list()`: the slot of `e` is in use, whatever its version. -/
abbrev Busy (s : EntityStorage) (e : Entity) : Prop := e.index ∈ s.live.map Entity.index

/-- The position of the slot of `e`. -/
def slot (s : EntityStorage) (e : Entity) : Option Nat :=
  s.packed.findIdx? fun x ↦ x.index = e.index

theorem slot_eq_some {s : EntityStorage} {e : Entity} {p : Nat} (h : s.slot e = some p) :
    ∃ x, s.packed[p]? = some x ∧ x.index = e.index := by
  obtain ⟨hp, hx, -⟩ := List.findIdx?_eq_some_iff_getElem.mp h
  exact ⟨_, List.getElem?_eq_getElem hp, of_decide_eq_true hx⟩

theorem slot_eq_none {s : EntityStorage} {e : Entity} (h : s.slot e = none) :
    e.index ∉ s.packed.map Entity.index := by
  intro hm
  obtain ⟨x, hx, he⟩ := List.mem_map.mp hm
  have := List.findIdx?_eq_none_iff.mp h x hx
  simp [he] at this

theorem index_injOn {s : EntityStorage} {x y : Entity} (hx : x ∈ s.packed) (hy : y ∈ s.packed)
    (h : x.index = y.index) : x = y :=
  List.inj_on_of_nodup_map s.nodup hx hy h

/-- Giving a slot another version keeps every slot's index. -/
private theorem map_index_set {l : List Entity} {p : Nat} {x e : Entity} (hp : l[p]? = some x)
    (he : x.index = e.index) : (l.set p e).map Entity.index = l.map Entity.index := by
  obtain ⟨hlt, rfl⟩ := List.getElem?_eq_some_iff.mp hp
  rw [List.map_set, ← he]
  have hlt' : p < (l.map Entity.index).length := by rwa [List.length_map]
  have hmap : l[p].index = (l.map Entity.index)[p] := (List.getElem_map _).symm
  rw [hmap, List.set_getElem_self]

/-- `try_emplace(e, true)`: the slot of `e` takes its version, or is appended, and
moves to the end of the part in use. -/
def tryEmplace (s : EntityStorage) (e : Entity) : EntityStorage :=
  match h : s.slot e with
  | some p =>
      { packed := (s.packed.set p e).exchange p s.head
        head := s.head + 1
        placeholder := s.placeholder
        nodup := by
          obtain ⟨x, hx, he⟩ := slot_eq_some h
          rw [List.map_exchange, List.nodup_exchange, map_index_set hx he]
          exact s.nodup }
  | none =>
      { packed := (s.packed ++ [e]).exchange s.packed.length s.head
        head := s.head + 1
        placeholder := s.placeholder
        nodup := by
          rw [List.map_exchange, List.nodup_exchange, List.map_append, List.map_singleton]
          rw [← List.concat_eq_append]
          exact s.nodup.concat (slot_eq_none h) }

/-- `entity_at(i)`: the identifier a new slot starts with. -/
def entityAt (i : Nat) (h : i < 0xFFFFF) : Entity := ⟨⟨i, Nat.lt_succ_of_lt h⟩, Entity.firstVersion⟩

/-- `next()`: the first index from the placeholder on that has no slot, and the
placeholder behind it.  `none` when the indices have run out. -/
def nextFrom (s : EntityStorage) : Nat → Nat → Option (Entity × Nat)
  | 0, _ => none
  | fuel + 1, i =>
      if h : i < 0xFFFFF then
        if (entityAt i h).index ∈ s.packed.map Entity.index then s.nextFrom fuel (i + 1)
        else some (entityAt i h, i + 1)
      else none

/-- `emplace()`: the released identifier at `head`, or one with a new slot. -/
def emplace (s : EntityStorage) : Option (Entity × EntityStorage) :=
  if s.head < s.packed.length then
    s.packed[s.head]?.map fun e ↦ (e, s.tryEmplace e)
  else if s.head = s.packed.length then
    (s.nextFrom (0xFFFFF - s.placeholder) s.placeholder).map fun x ↦
      (x.1, { s with placeholder := x.2 }.tryEmplace x.1)
  else none

/-- `emplace(hint)`: the identifier itself where it is one and its slot is not in
use, and any identifier otherwise. -/
def emplaceHint (s : EntityStorage) (hint : Entity) : Option (Entity × EntityStorage) :=
  if s.head ≤ s.packed.length ∧ ¬ hint.IsNull ∧ ¬ hint.IsTombstone ∧ ¬ s.Busy hint then
    some (hint, s.tryEmplace hint)
  else s.emplace

/-- `swap_only`: release `e`, whose slot is at `p`, with its next version. -/
def erase (s : EntityStorage) (e : Entity) (p : Nat) (hp : s.packed[p]? = some e) :
    EntityStorage where
  packed := (s.packed.set p e.next).exchange p (s.head - 1)
  head := s.head - 1
  placeholder := s.placeholder
  nodup := by
    rw [List.map_exchange, List.nodup_exchange, map_index_set hp e.next_index.symm]
    exact s.nodup

/-- `free_list(len)`. -/
def setFreeList (s : EntityStorage) (n : Nat) : EntityStorage := { s with head := n }

/-- Release every identifier in use, the last first; none of them moves. -/
def eraseAll (s : EntityStorage) : EntityStorage where
  packed := s.live.map Entity.next ++ s.packed.drop s.head
  head := 0
  placeholder := s.placeholder
  nodup := by
    have h : (s.live.map Entity.next ++ s.packed.drop s.head).map Entity.index =
        s.packed.map Entity.index := by
      conv_rhs => rw [← List.take_append_drop s.head s.packed]
      simp [live, Function.comp_def]
    rw [h]
    exact s.nodup

/-! ## Storages the operations build -/

/-- What every sequence of registry operations keeps: the part in use is a part of
the array, and every identifier is one. -/
structure Sound (s : EntityStorage) : Prop where
  head_le : s.head ≤ s.packed.length
  real : ∀ e ∈ s.packed, ¬ e.IsNull ∧ ¬ e.IsTombstone

theorem sound_empty : empty.Sound := ⟨Nat.le_refl _, nofun⟩

theorem mem_packed_of_live {s : EntityStorage} {e : Entity} (h : s.Valid e) : s.Contains e :=
  List.mem_of_mem_take h

theorem Sound.length_live {s : EntityStorage} (h : s.Sound) : s.live.length = s.head := by
  rw [live, List.length_take, Nat.min_eq_left h.head_le]

theorem nodup_live (s : EntityStorage) : (s.live.map Entity.index).Nodup := by
  rw [live, List.map_take]
  exact s.nodup.sublist (List.take_sublist _ _)

theorem nodup_packed (s : EntityStorage) : s.packed.Nodup := List.Nodup.of_map _ s.nodup

section TryEmplace

variable {s : EntityStorage} {e : Entity}

/-- A slot that exists and is not in use lies behind the part in use. -/
private theorem head_le_slot {p : Nat} (hb : ¬ s.Busy e) (h : s.slot e = some p) : s.head ≤ p := by
  obtain ⟨x, hx, he⟩ := slot_eq_some h
  refine Nat.le_of_not_lt fun hlt ↦ hb ?_
  rw [Busy, ← he]
  exact List.mem_map_of_mem (List.mem_take_iff_getElem?.mpr ⟨p, hlt, hx⟩)

@[simp] theorem tryEmplace_head (s : EntityStorage) (e : Entity) :
    (s.tryEmplace e).head = s.head + 1 := by
  unfold tryEmplace
  split <;> rfl

/-- Emplacing adds the identifier at the end of those in use. -/
theorem tryEmplace_live (hs : s.head ≤ s.packed.length) (hb : ¬ s.Busy e) :
    (s.tryEmplace e).live = s.live ++ [e] := by
  unfold tryEmplace
  split
  · rename_i p hp
    obtain ⟨x, hx, -⟩ := slot_eq_some hp
    obtain ⟨hlt, -⟩ := List.getElem?_eq_some_iff.mp hx
    have hle := head_le_slot hb hp
    have he : (s.packed.set p e)[p]? = some e := by rw [List.getElem?_set_self hlt]
    change ((s.packed.set p e).exchange p s.head).take (s.head + 1) = s.live ++ [e]
    rw [List.take_exchange_succ hle he, List.take_set_of_le hle, live]
  · have he : (s.packed ++ [e])[s.packed.length]? = some e := by simp
    change ((s.packed ++ [e]).exchange s.packed.length s.head).take (s.head + 1) = s.live ++ [e]
    rw [List.take_exchange_succ hs he, List.take_append_of_le_length hs, live]

/-- What the storage contains afterwards. -/
theorem mem_tryEmplace {x : Entity} : (s.tryEmplace e).Contains x ↔
    x = e ∨ (s.Contains x ∧ x.index ≠ e.index) := by
  unfold tryEmplace Contains
  split
  · rename_i p hp
    obtain ⟨y, hy, hye⟩ := slot_eq_some hp
    rw [List.mem_exchange, List.mem_iff_getElem?]
    constructor
    · rintro ⟨k, hk⟩
      rw [List.getElem?_set] at hk
      split at hk
      · split at hk
        · exact .inl (Option.some.inj hk).symm
        · cases hk
      · rename_i hpk
        refine .inr ⟨List.mem_of_getElem? hk, fun hxe ↦ hpk ?_⟩
        have hxy := index_injOn (List.mem_of_getElem? hk) (List.mem_of_getElem? hy)
          (hxe.trans hye.symm)
        exact List.nodup_iff_getElem?_inj.mp s.nodup_packed hy (hxy ▸ hk)
    · rintro (rfl | ⟨hx, hne⟩)
      · obtain ⟨hlt, -⟩ := List.getElem?_eq_some_iff.mp hy
        exact ⟨p, List.getElem?_set_self hlt⟩
      · obtain ⟨k, hk⟩ := List.mem_iff_getElem?.mp hx
        refine ⟨k, ?_⟩
        rw [List.getElem?_set_ne, hk]
        rintro rfl
        exact hne (Option.some.inj (hk.symm.trans hy) ▸ hye)
  · rename_i hp
    rw [List.mem_exchange, List.mem_append, List.mem_singleton]
    constructor
    · rintro (hx | rfl)
      · exact .inr ⟨hx, fun he ↦ slot_eq_none hp (he ▸ List.mem_map_of_mem hx)⟩
      · exact .inl rfl
    · rintro (rfl | ⟨hx, -⟩)
      · exact .inr rfl
      · exact .inl hx

/-- A slot that is not in use can be brought into use in a sound storage. -/
theorem Sound.tryEmplace (hs : s.Sound) (hb : ¬ s.Busy e) (hn : ¬ e.IsNull)
    (ht : ¬ e.IsTombstone) : (s.tryEmplace e).Sound := by
  constructor
  · have hlive := congrArg List.length (tryEmplace_live hs.head_le hb)
    rw [List.length_append, List.length_singleton, hs.length_live, live, List.length_take,
      tryEmplace_head] at hlive
    rw [tryEmplace_head]
    omega
  · intro x hx
    rcases mem_tryEmplace.mp hx with rfl | ⟨hx, -⟩
    · exact ⟨hn, ht⟩
    · exact hs.real x hx

end TryEmplace

/-! ## Handing out an identifier -/

theorem nextFrom_eq_some {s : EntityStorage} {fuel i : Nat} {x : Entity × Nat}
    (h : s.nextFrom fuel i = some x) :
    x.1.index ∉ s.packed.map Entity.index ∧ ¬ x.1.IsNull ∧ ¬ x.1.IsTombstone := by
  induction fuel generalizing i with
  | zero => cases h
  | succ fuel ih =>
      rw [nextFrom] at h
      split at h
      · rename_i hi
        split at h
        · exact ih h
        · rename_i hfree
          obtain rfl := Option.some.inj h
          refine ⟨hfree, fun hnull ↦ ?_, fun ht ↦ ?_⟩
          · have := congrArg Fin.val hnull
            change i = 0xFFFFF at this
            omega
          · have ht : (0 : Fin 0x1000) = 0xFFF := ht
            exact absurd ht (by decide)
      · cases h

/-- What `emplace()` does: the identifier it returns is one, its slot was not in
use, and it is now in use after the others. -/
theorem emplace_eq_some {s s' : EntityStorage} {e : Entity} (hs : s.Sound)
    (h : s.emplace = some (e, s')) :
    ¬ s.Busy e ∧ ¬ e.IsNull ∧ ¬ e.IsTombstone ∧ s'.live = s.live ++ [e] ∧ s'.Sound := by
  unfold emplace at h
  split at h
  · rename_i hlt
    obtain ⟨x, hx, he⟩ := Option.map_eq_some_iff.mp h
    obtain ⟨rfl, rfl⟩ := Prod.mk.inj he
    have hb : ¬ s.Busy x := by
      intro hm
      obtain ⟨y, hy, hyx⟩ := List.mem_map.mp hm
      obtain ⟨k, hk, hky⟩ := List.mem_take_iff_getElem?.mp hy
      obtain rfl := index_injOn (List.mem_of_getElem? hky) (List.mem_of_getElem? hx) hyx
      exact absurd (List.nodup_iff_getElem?_inj.mp s.nodup_packed hky hx) (Nat.ne_of_lt hk)
    obtain ⟨hn, ht⟩ := hs.real x (List.mem_of_getElem? hx)
    exact ⟨hb, hn, ht, tryEmplace_live hs.head_le hb, hs.tryEmplace hb hn ht⟩
  · split at h
    · obtain ⟨⟨x, i⟩, hx, he⟩ := Option.map_eq_some_iff.mp h
      obtain ⟨rfl, rfl⟩ := Prod.mk.inj he
      obtain ⟨hfree, hn, ht⟩ := nextFrom_eq_some hx
      have hb : ¬ s.Busy x := fun hm ↦ hfree <| by
        rw [Busy, live, List.map_take] at hm
        exact List.mem_of_mem_take hm
      have hs' : Sound { s with placeholder := i } := ⟨hs.head_le, hs.real⟩
      exact ⟨hb, hn, ht, tryEmplace_live hs.head_le hb, hs'.tryEmplace hb hn ht⟩
    · cases h

/-- Nothing was released yet: every identifier is in use, and their indices are below
`n`, which is the next one to be tried. -/
structure Dense (s : EntityStorage) (n : Nat) : Prop where
  head_eq : s.head = s.packed.length
  placeholder_eq : s.placeholder = n
  index_lt : ∀ e ∈ s.packed, e.index.val < n

theorem dense_empty : empty.Dense 0 := ⟨rfl, rfl, nofun⟩

/-- Such a storage hands out the next index. -/
theorem Dense.emplace {s : EntityStorage} {n : Nat} (hs : s.Dense n) (hn : n < 0xFFFFF) :
    ∃ s', s.emplace = some (entityAt n hn, s') ∧ s'.Dense (n + 1) := by
  have hfree : (entityAt n hn).index ∉ s.packed.map Entity.index := by
    intro hm
    obtain ⟨e, he, hi⟩ := List.mem_map.mp hm
    have hlt := hs.index_lt e he
    rw [hi] at hlt
    exact absurd hlt (Nat.lt_irrefl n)
  have hnext : s.nextFrom (0xFFFFF - n) n = some (entityAt n hn, n + 1) := by
    obtain ⟨fuel, hfuel⟩ : ∃ fuel, 0xFFFFF - n = fuel + 1 := ⟨0xFFFFF - n - 1, by omega⟩
    rw [hfuel, nextFrom, dif_pos hn, if_neg hfree]
  refine ⟨{ s with placeholder := n + 1 }.tryEmplace (entityAt n hn), ?_, ?_⟩
  · rw [EntityStorage.emplace, if_neg (by rw [hs.head_eq]; exact Nat.lt_irrefl _),
      if_pos hs.head_eq, hs.placeholder_eq, hnext]
    rfl
  · unfold tryEmplace
    split
    · rename_i p hp
      obtain ⟨x, hx, hi⟩ := slot_eq_some hp
      exact absurd (hi ▸ List.mem_map_of_mem (List.mem_of_getElem? hx)) hfree
    · have hpacked : (s.packed ++ [entityAt n hn]).exchange s.packed.length s.head =
          s.packed ++ [entityAt n hn] := by
        rw [hs.head_eq, List.exchange_self]
      refine ⟨?_, rfl, ?_⟩
      · show s.head + 1 = List.length (List.exchange _ _ _)
        rw [List.length_exchange, List.length_append, hs.head_eq]
        rfl
      · show ∀ e ∈ List.exchange _ _ _, _
        rw [hpacked]
        intro e he
        rcases List.mem_append.mp he with he | he
        · exact Nat.lt_succ_of_lt (hs.index_lt e he)
        · obtain rfl := List.mem_singleton.mp he
          exact Nat.lt_succ_self n

/-- A hint whose slot is not in use is handed out itself. -/
theorem emplaceHint_eq {s : EntityStorage} {e : Entity} (hs : s.head ≤ s.packed.length)
    (hn : ¬ e.IsNull) (ht : ¬ e.IsTombstone) (hb : ¬ s.Busy e) :
    s.emplaceHint e = some (e, s.tryEmplace e) := by
  rw [emplaceHint, if_pos ⟨hs, hn, ht, hb⟩]

/-- What `emplace(hint)` does, whatever the hint. -/
theorem emplaceHint_eq_some {s s' : EntityStorage} {hint e : Entity} (hs : s.Sound)
    (h : s.emplaceHint hint = some (e, s')) :
    ¬ s.Busy e ∧ ¬ e.IsNull ∧ ¬ e.IsTombstone ∧ s'.live = s.live ++ [e] ∧ s'.Sound := by
  unfold emplaceHint at h
  split at h
  · rename_i hc
    obtain ⟨rfl, rfl⟩ := Prod.mk.inj (Option.some.inj h)
    obtain ⟨-, hn, ht, hb⟩ := hc
    exact ⟨hb, hn, ht, tryEmplace_live hs.head_le hb, hs.tryEmplace hb hn ht⟩
  · exact emplace_eq_some hs h

/-! ## Releasing -/

/-- Releasing an identifier leaves the others in use. -/
theorem mem_erase_live {s : EntityStorage} {e x : Entity} {p : Nat} (hp : s.packed[p]? = some e)
    (hlt : p < s.head) (hs : s.Sound) : (s.erase e p hp).Valid x ↔ s.Valid x ∧ x ≠ e := by
  have hplt : p < s.packed.length := Nat.lt_of_lt_of_le hlt hs.head_le
  have hnd : (s.packed.set p e.next).Nodup := List.Nodup.of_map Entity.index (by
    rw [map_index_set hp e.next_index.symm]; exact s.nodup)
  have hset : (s.packed.set p e.next)[p]? = some e.next := List.getElem?_set_self hplt
  have hlen : s.head ≤ (s.packed.set p e.next).length := by simpa using hs.head_le
  change x ∈ ((s.packed.set p e.next).exchange p (s.head - 1)).take (s.head - 1) ↔
    x ∈ s.packed.take s.head ∧ x ≠ e
  rw [List.mem_take_exchange_pred hnd hlt hlen hset]
  constructor
  · rintro ⟨hm, hne⟩
    obtain ⟨k, hk, hx⟩ := List.mem_take_iff_getElem?.mp hm
    have hpk : p ≠ k := by
      rintro rfl
      exact hne (Option.some.inj (hx.symm.trans hset))
    rw [List.getElem?_set_ne hpk] at hx
    refine ⟨List.mem_take_iff_getElem?.mpr ⟨k, hk, hx⟩, fun he ↦ hpk ?_⟩
    exact List.nodup_iff_getElem?_inj.mp s.nodup_packed hp (he ▸ hx)
  · rintro ⟨hx, hne⟩
    obtain ⟨k, hk, hx⟩ := List.mem_take_iff_getElem?.mp hx
    have hpk : p ≠ k := by
      rintro rfl
      exact hne (Option.some.inj (hx.symm.trans hp))
    refine ⟨List.mem_take_iff_getElem?.mpr ⟨k, hk, by rw [List.getElem?_set_ne hpk, hx]⟩, ?_⟩
    rintro rfl
    have := index_injOn (List.mem_of_getElem? hx) (List.mem_of_getElem? hp) e.next_index
    exact e.next_ne this

theorem Sound.erase {s : EntityStorage} {e : Entity} {p : Nat} (hp : s.packed[p]? = some e)
    (hs : s.Sound) : (s.erase e p hp).Sound := by
  constructor
  · change s.head - 1 ≤ ((s.packed.set p e.next).exchange p (s.head - 1)).length
    have := hs.head_le
    simp only [List.length_exchange, List.length_set]
    omega
  · intro x hx
    have hx' : x ∈ (s.packed.set p e.next).exchange p (s.head - 1) := hx
    rw [List.mem_exchange] at hx'
    rcases List.mem_or_eq_of_mem_set hx' with hx' | rfl
    · exact hs.real x hx'
    · exact ⟨(hs.real e (List.mem_of_getElem? hp)).1, e.not_isTombstone_next⟩

theorem Sound.eraseAll {s : EntityStorage} (hs : s.Sound) : s.eraseAll.Sound := by
  refine ⟨Nat.zero_le _, fun x hx ↦ ?_⟩
  rcases List.mem_append.mp hx with hx | hx
  · obtain ⟨y, hy, rfl⟩ := List.mem_map.mp hx
    exact ⟨(hs.real y (mem_packed_of_live hy)).1, y.not_isTombstone_next⟩
  · exact hs.real x (List.mem_of_mem_drop hx)

end EntityStorage

end Konative.Entt
