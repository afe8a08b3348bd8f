import Konative.Lib.Codec

/-!
# EnTT's entity identifiers

The repository spells `entt::entity` as `ecs::Entity` and never looks inside one.
EnTT 3.13 packs an identifier into 32 bits: the low 20 are the index of the
entity's slot, the high 12 count how often the slot was recycled.  The index with
all bits set is `entt::null`, the version with all bits set `entt::tombstone`;
neither belongs to an entity.
-/

namespace Konative.Entt

/-- `entt::entity`. -/
@[ext]
structure Entity where
  index : Fin 0x100000
  version : Fin 0x1000
deriving DecidableEq, Repr

namespace Entity

/-- The version of a slot that was never recycled. -/
def firstVersion : Fin 0x1000 := 0

/-- `entity == entt::null`: only the index is compared. -/
abbrev IsNull (e : Entity) : Prop := e.index = 0xFFFFF

/-- `entity == entt::tombstone`: only the version is compared. -/
abbrev IsTombstone (e : Entity) : Prop := e.version = 0xFFF

/-- `traits_type::next`: the slot's next version, which skips the tombstone's. -/
def next (e : Entity) : Entity where
  index := e.index
  version := if e.version + 1 = 0xFFF then 0 else e.version + 1

@[simp] theorem next_index (e : Entity) : e.next.index = e.index := rfl

theorem not_isTombstone_next (e : Entity) : ¬ e.next.IsTombstone := by
  intro h
  change (if e.version + 1 = 0xFFF then (0 : Fin 0x1000) else e.version + 1) = 0xFFF at h
  split at h
  · exact absurd h (by decide)
  · exact ‹¬ _› h

theorem next_ne (e : Entity) : e.next ≠ e := by
  intro h
  have hv : (if e.version + 1 = 0xFFF then (0 : Fin 0x1000) else e.version + 1) = e.version :=
    congrArg version h
  split at hv <;> rename_i hc
  · rw [← hv] at hc
    exact absurd hc (by decide)
  · have := congrArg Fin.val hv
    rw [Fin.val_add] at this
    have hlt := e.version.isLt
    simp only [Fin.val_one] at this
    omega

/-- `to_integral`. -/
def toIntegral (e : Entity) : UInt32 :=
  UInt32.ofNat (e.version.val * 0x100000 + e.index.val)

/-- The identifier an integer stands for. -/
def ofIntegral (n : UInt32) : Entity where
  index := ⟨n.toNat % 0x100000, Nat.mod_lt _ (by decide)⟩
  version := ⟨n.toNat / 0x100000, by have := n.toNat_lt; omega⟩

theorem ofIntegral_toIntegral (e : Entity) : ofIntegral e.toIntegral = e := by
  have hi := e.index.isLt
  have hv := e.version.isLt
  have hn : e.toIntegral.toNat = e.version.val * 0x100000 + e.index.val :=
    UInt32.toNat_ofNat_of_lt' (by change _ < 4294967296; omega)
  refine Entity.ext (Fin.ext ?_) (Fin.ext ?_)
  · change e.toIntegral.toNat % 0x100000 = e.index.val
    omega
  · change e.toIntegral.toNat / 0x100000 = e.version.val
    omega

/-- An identifier is archived as its integer. -/
def codec : Codec Entity := Codec.u32.map ofIntegral toIntegral ofIntegral_toIntegral

end Entity

end Konative.Entt
