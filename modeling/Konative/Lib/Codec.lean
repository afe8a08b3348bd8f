import Konative.Lib.FileSystem
import Mathlib.Algebra.Group.Nat.Defs

/-!
# Codecs of unframed byte streams

A `Codec α` writes a value as bytes and reads one from the front of a byte
stream, leaving the rest.  Nothing separates one value from the next, so the two
laws are the ones that make concatenation readable:

* `dec_enc` — reading what was written gives the value and exactly the rest;
* `dec_append` — a read that succeeds does not depend on the bytes behind it.

The second says that a reader does not look ahead; with the first it makes every
strict prefix of an encoding unreadable.

The codecs are built from little-endian words by pairing, by a bijection and by
repetition.
-/

universe u v

/-- A value's byte encoding and the reader of it. -/
structure Codec (α : Type u) where
  enc : α → Bytes
  dec : Bytes → Option (α × Bytes)
  dec_enc : ∀ a rest, dec (enc a ++ rest) = some (a, rest)
  dec_append : ∀ {bs a rest} (q : Bytes), dec bs = some (a, rest) →
    dec (bs ++ q) = some (a, rest ++ q)

namespace Codec

variable {α : Type u} {β : Type v}

/-- No strict prefix of an encoding can be read. -/
theorem dec_eq_none (c : Codec α) {a : α} {p q : Bytes} (hq : q ≠ []) (h : p ++ q = c.enc a) :
    c.dec p = none := by
  cases hp : c.dec p with
  | none => rfl
  | some x =>
      have happ := c.dec_append q hp
      have henc := c.dec_enc a []
      rw [List.append_nil, ← h, happ] at henc
      have hnil := congrArg Prod.snd (Option.some.inj henc)
      exact absurd (List.append_eq_nil_iff.mp hnil).2 hq

/-! ## Little-endian words -/

/-- The `k` low base-256 digits of `n`, least significant first. -/
def leBytes : Nat → Nat → Bytes
  | 0, _ => []
  | k + 1, n => UInt8.ofNat n :: leBytes k (n / 256)

/-- The number whose base-256 digits, least significant first, are `bs`. -/
def leNat : Bytes → Nat
  | [] => 0
  | b :: bs => b.toNat + 256 * leNat bs

@[simp] theorem length_leBytes (k n : Nat) : (leBytes k n).length = k := by
  induction k generalizing n with
  | zero => rfl
  | succ k ih => simp [leBytes, ih]

theorem leNat_leBytes (k n : Nat) : leNat (leBytes k n) = n % 256 ^ k := by
  induction k generalizing n with
  | zero => simp [leBytes, leNat, Nat.mod_one]
  | succ k ih =>
      have hb : (UInt8.ofNat n).toNat = n % 256 := UInt8.toNat_ofNat'
      rw [leBytes, leNat, ih, hb, Nat.pow_succ', Nat.mod_mul]

theorem leNat_leBytes_of_lt {k n : Nat} (h : n < 256 ^ k) : leNat (leBytes k n) = n := by
  rw [leNat_leBytes, Nat.mod_eq_of_lt h]

/-- Read `k` bytes, or fail when fewer are left. -/
def takeBytes (k : Nat) (bs : Bytes) : Option (Bytes × Bytes) :=
  if bs.length < k then none else some (bs.take k, bs.drop k)

theorem takeBytes_append {p : Bytes} (rest : Bytes) :
    takeBytes p.length (p ++ rest) = some (p, rest) := by
  have h : ¬ (p ++ rest).length < p.length := by simp
  rw [takeBytes, if_neg h, List.take_left, List.drop_left]

theorem takeBytes_eq_some {k : Nat} {bs p rest : Bytes} (h : takeBytes k bs = some (p, rest)) :
    bs = p ++ rest ∧ p.length = k := by
  unfold takeBytes at h
  split at h
  · cases h
  · rename_i hk
    obtain ⟨rfl, rfl⟩ := Prod.mk.inj (Option.some.inj h)
    exact ⟨(List.take_append_drop k bs).symm, by simp; omega⟩

/-- A value stored as a `k`-byte little-endian word. -/
def word (k : Nat) (toNat : α → Nat) (ofNat : Nat → α) (hlt : ∀ a, toNat a < 256 ^ k)
    (hof : ∀ a, ofNat (toNat a) = a) : Codec α where
  enc a := leBytes k (toNat a)
  dec bs := (takeBytes k bs).map fun p ↦ (ofNat (leNat p.1), p.2)
  dec_enc a rest := by
    have h := takeBytes_append (p := leBytes k (toNat a)) rest
    rw [length_leBytes] at h
    rw [h, Option.map_some, leNat_leBytes_of_lt (hlt a), hof]
  dec_append {bs a rest} q h := by
    obtain ⟨⟨p, r⟩, hp, hr⟩ := Option.map_eq_some_iff.mp h
    obtain ⟨rfl, rfl⟩ := takeBytes_eq_some hp
    obtain ⟨rfl, rfl⟩ := Prod.mk.inj hr
    rw [List.append_assoc, takeBytes_append, Option.map_some]

/-- An unsigned 32-bit integer. -/
def u32 : Codec UInt32 :=
  word 4 UInt32.toNat UInt32.ofNat (fun a ↦ a.toNat_lt) (fun a ↦ by simp)

/-- An unsigned 64-bit integer. -/
def u64 : Codec UInt64 :=
  word 8 UInt64.toNat UInt64.ofNat (fun a ↦ a.toNat_lt) (fun a ↦ by simp)

/-! ## Numbers of any size -/

/-- Read a number written as that many ones and a zero. -/
def decUnary : Bytes → Option (Nat × Bytes)
  | [] => none
  | b :: bs => if b = 0 then some (0, bs) else (decUnary bs).map fun x ↦ (x.1 + 1, x.2)

/-- A number of any size. -/
def unary : Codec Nat where
  enc n := List.replicate n 1 ++ [0]
  dec := decUnary
  dec_enc n rest := by
    induction n with
    | zero => rfl
    | succ n ih =>
        change (decUnary (List.replicate n 1 ++ [0] ++ rest)).map _ = _
        rw [ih]
        rfl
  dec_append {bs n rest} q h := by
    induction bs generalizing n with
    | nil => cases h
    | cons b bs ih =>
        unfold decUnary at h ⊢
        simp only [List.cons_append]
        split at h
        · rename_i hb
          obtain ⟨rfl, rfl⟩ := Prod.mk.inj (Option.some.inj h)
          rw [if_pos hb]
        · rename_i hb
          obtain ⟨x, hx, hn⟩ := Option.map_eq_some_iff.mp h
          obtain ⟨rfl, rfl⟩ := Prod.mk.inj hn
          rw [if_neg hb, ih hx, Option.map_some]

/-! ## Combinators -/

/-- One value after another. -/
def pair (c : Codec α) (d : Codec β) : Codec (α × β) where
  enc p := c.enc p.1 ++ d.enc p.2
  dec bs := (c.dec bs).bind fun x ↦ (d.dec x.2).map fun y ↦ ((x.1, y.1), y.2)
  dec_enc p rest := by
    rw [List.append_assoc, c.dec_enc, Option.bind_some, d.dec_enc, Option.map_some]
  dec_append {bs p rest} q h := by
    obtain ⟨⟨a, r⟩, hc, h⟩ := Option.bind_eq_some_iff.mp h
    obtain ⟨⟨b, r'⟩, hd, hr⟩ := Option.map_eq_some_iff.mp h
    obtain ⟨rfl, rfl⟩ := Prod.mk.inj hr
    rw [c.dec_append q hc, Option.bind_some, d.dec_append q hd, Option.map_some]

/-- The codec of a type that another one represents. -/
def map (c : Codec α) (f : α → β) (g : β → α) (h : ∀ b, f (g b) = b) : Codec β where
  enc b := c.enc (g b)
  dec bs := (c.dec bs).map fun x ↦ (f x.1, x.2)
  dec_enc b rest := by rw [c.dec_enc, Option.map_some, h]
  dec_append {bs b rest} q hd := by
    obtain ⟨⟨a, r⟩, hc, hr⟩ := Option.map_eq_some_iff.mp hd
    obtain ⟨rfl, rfl⟩ := Prod.mk.inj hr
    rw [c.dec_append q hc, Option.map_some]

end Codec
