import Konative.Lib.Codec

/-!
# Objects of a fixed layout

An object of a trivially copyable type is its bytes: so many of them, and any that many
are an object.  A reader that copies bytes straight into an object can stop half-way, and
what the object then is has some new bytes in front and the old ones behind them.
-/

universe u v

/-- A type whose objects are byte strings of one length. -/
structure Layout (S : Type u) where
  width : Nat
  bytes : S → Bytes
  ofBytes : Bytes → S
  length_bytes : ∀ s, (bytes s).length = width
  ofBytes_bytes : ∀ s, ofBytes (bytes s) = s
  bytes_ofBytes : ∀ bs, bs.length = width → bytes (ofBytes bs) = bs

namespace Layout

variable {S : Type u} {T : Type v}

/-! ## Copying into an object -/

section Overwrite

variable (l : Layout S)

/-- The object once these bytes were copied over its first ones. -/
def overwrite (s : S) (p : Bytes) : S := l.ofBytes (p ++ (l.bytes s).drop p.length)

theorem bytes_overwrite {s : S} {p : Bytes} (h : p.length ≤ l.width) :
    l.bytes (l.overwrite s p) = p ++ (l.bytes s).drop p.length := by
  rw [overwrite, l.bytes_ofBytes]
  rw [List.length_append, List.length_drop, l.length_bytes]
  omega

/-- Nothing has changed if and only if the object began with these bytes. -/
theorem overwrite_eq_self_iff {s : S} {p : Bytes} (h : p.length ≤ l.width) :
    l.overwrite s p = s ↔ p <+: l.bytes s := by
  constructor
  · intro hs
    rw [← hs, l.bytes_overwrite h]
    exact List.prefix_append ..
  · rintro ⟨q, hq⟩
    rw [overwrite, ← hq, List.drop_left, hq, l.ofBytes_bytes]

end Overwrite

/-! ## Layouts -/

/-- The digits of the number that bytes stand for are those bytes. -/
theorem leBytes_leNat (bs : Bytes) : Codec.leBytes bs.length (Codec.leNat bs) = bs := by
  induction bs with
  | nil => rfl
  | cons b bs ih =>
      have hb : b.toNat < 256 := b.toNat_lt
      have hhead : UInt8.ofNat (b.toNat + 256 * Codec.leNat bs) = b := by
        apply UInt8.toNat_inj.mp
        rw [UInt8.toNat_ofNat']
        omega
      have htail : (b.toNat + 256 * Codec.leNat bs) / 256 = Codec.leNat bs := by omega
      rw [List.length_cons, Codec.leNat, Codec.leBytes, hhead, htail, ih]

theorem leNat_lt (bs : Bytes) : Codec.leNat bs < 256 ^ bs.length := by
  induction bs with
  | nil => decide
  | cons b bs ih =>
      have hb : b.toNat < 256 := b.toNat_lt
      rw [Codec.leNat, List.length_cons, Nat.pow_succ]
      omega

/-- A value stored as a little-endian word of `k` bytes. -/
def word (k : Nat) (toNat : S → Nat) (ofNat : Nat → S) (hlt : ∀ s, toNat s < 256 ^ k)
    (hof : ∀ s, ofNat (toNat s) = s) (hto : ∀ n < 256 ^ k, toNat (ofNat n) = n) : Layout S where
  width := k
  bytes s := Codec.leBytes k (toNat s)
  ofBytes bs := ofNat (Codec.leNat bs)
  length_bytes _ := Codec.length_leBytes ..
  ofBytes_bytes s := by rw [Codec.leNat_leBytes_of_lt (hlt s), hof]
  bytes_ofBytes bs h := by
    subst h
    rw [hto _ (leNat_lt bs), leBytes_leNat]

/-- An unsigned 32-bit integer. -/
def u32 : Layout UInt32 :=
  word 4 UInt32.toNat UInt32.ofNat (fun a ↦ a.toNat_lt) (fun _ ↦ UInt32.ofNat_toNat)
    fun _ h ↦ UInt32.toNat_ofNat_of_lt' h

/-- An unsigned 64-bit integer. -/
def u64 : Layout UInt64 :=
  word 8 UInt64.toNat UInt64.ofNat (fun a ↦ a.toNat_lt) (fun _ ↦ UInt64.ofNat_toNat)
    fun _ h ↦ UInt64.toNat_ofNat_of_lt' h

/-- The layout of a structure with one field. -/
def map (l : Layout S) (f : S → T) (g : T → S) (hfg : ∀ t, f (g t) = t) (hgf : ∀ s, g (f s) = s) :
    Layout T where
  width := l.width
  bytes t := l.bytes (g t)
  ofBytes bs := f (l.ofBytes bs)
  length_bytes t := l.length_bytes (g t)
  ofBytes_bytes t := by rw [l.ofBytes_bytes, hfg]
  bytes_ofBytes bs h := by rw [hgf, l.bytes_ofBytes bs h]

/-- Reading whole objects off a byte stream. -/
def codec (l : Layout S) : Codec S where
  enc := l.bytes
  dec bs := (Codec.takeBytes l.width bs).map fun p ↦ (l.ofBytes p.1, p.2)
  dec_enc s rest := by
    have h := Codec.takeBytes_append (p := l.bytes s) rest
    rw [l.length_bytes] at h
    rw [h, Option.map_some, l.ofBytes_bytes]
  dec_append {bs s rest} q h := by
    obtain ⟨⟨p, r⟩, hp, hr⟩ := Option.map_eq_some_iff.mp h
    obtain ⟨rfl, hlen⟩ := Codec.takeBytes_eq_some hp
    obtain ⟨rfl, rfl⟩ := Prod.mk.inj hr
    rw [List.append_assoc, ← hlen, Codec.takeBytes_append, Option.map_some]

end Layout
