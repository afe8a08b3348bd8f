import Konative.Ecs.SnapshotUntrusted

/-!
# Truncated snapshot files

A file that was cut short is refused, wherever the cut is, and nothing of it stays in
the registry.

The argument does not look at where the cut falls.  No part of the loader looks ahead,
so what it does with the bytes before the cut is what it would have done with the whole
file: it cannot come to an end of its own, because on the whole file it would then end
too early, and it cannot go wrong, because on the whole file it does not.  What is left
is to throw, and a registry it has filled from a snapshot is one that `clear()` empties.
-/

universe u v

namespace Konative.Ecs

open Entt

variable {ι : Type u} {Val : ι → Type v}

/-! ## Loading more bytes -/

/-- What a load of some bytes says of the load of those and more behind them. -/
def Loaded.Agrees (q : Bytes) : Loaded ι Val → Loaded ι Val → Prop
  | .done r rest, y => y = .done r (rest ++ q)
  | .threw _, _ => True
  | .undefined, y => y = .undefined

theorem Loaded.Agrees.andThen {q : Bytes} {x y : Loaded ι Val}
    {f : Registry ι Val → Bytes → Loaded ι Val} (h : x.Agrees q y)
    (hf : ∀ r bs, (f r bs).Agrees q (f r (bs ++ q))) : (x.andThen f).Agrees q (y.andThen f) := by
  cases x with
  | done r rest =>
      obtain rfl : y = .done r (rest ++ q) := h
      exact hf r rest
  | threw r => trivial
  | undefined =>
      obtain rfl : y = .undefined := h
      exact rfl

theorem loadIdentifiers_agrees (q : Bytes) (n : Nat) (r : Registry ι Val) (bs : Bytes) :
    (loadIdentifiers n r bs).Agrees q (loadIdentifiers n r (bs ++ q)) := by
  induction n generalizing r bs with
  | zero => exact rfl
  | succ n ih =>
      unfold loadIdentifiers
      cases h : Entity.codec.dec bs with
      | none => trivial
      | some x =>
          rw [Entity.codec.dec_append q h]
          simp only
          cases r.entities.emplaceHint x.1 with
          | none => exact rfl
          | some y => exact ih _ _

theorem loadEntities_agrees (q : Bytes) (r : Registry ι Val) (bs : Bytes) :
    (loadEntities r bs).Agrees q (loadEntities r (bs ++ q)) := by
  unfold loadEntities
  cases h : Codec.u32.dec bs with
  | none => trivial
  | some x =>
      rw [Codec.u32.dec_append q h]
      simp only
      cases h' : Codec.u32.dec x.2 with
      | none => trivial
      | some y =>
          rw [Codec.u32.dec_append q h']
          exact (loadIdentifiers_agrees q _ r y.2).andThen fun _ _ ↦ rfl

section Components

variable [DecidableEq ι]

theorem loadEntries_agrees (q : Bytes) (i : ι) (c : Codec (Val i)) (n : Nat) (r : Registry ι Val)
    (bs : Bytes) : (loadEntries i c n r bs).Agrees q (loadEntries i c n r (bs ++ q)) := by
  induction n generalizing r bs with
  | zero => exact rfl
  | succ n ih =>
      unfold loadEntries
      cases h : Entity.codec.dec bs with
      | none => trivial
      | some x =>
          rw [Entity.codec.dec_append q h]
          simp only
          split
          · exact ih _ _
          cases placeEntry r.entities x.1 with
          | none => exact rfl
          | some y =>
              simp only
              cases h' : c.dec x.2 with
              | none => trivial
              | some z =>
                  rw [c.dec_append q h']
                  exact ih _ _

theorem loadComponent_agrees (q : Bytes) (i : ι) (c : Codec (Val i)) (r : Registry ι Val)
    (bs : Bytes) : (loadComponent i c r bs).Agrees q (loadComponent i c r (bs ++ q)) := by
  unfold loadComponent
  cases h : Codec.u32.dec bs with
  | none => trivial
  | some x =>
      rw [Codec.u32.dec_append q h]
      exact loadEntries_agrees q i c _ r x.2

theorem loadComponents_agrees (q : Bytes) (codec : ∀ i, Codec (Val i)) (cs : List ι)
    (r : Registry ι Val) (bs : Bytes) :
    (loadComponents codec cs r bs).Agrees q (loadComponents codec cs r (bs ++ q)) := by
  induction cs generalizing r bs with
  | nil => exact rfl
  | cons i cs ih => exact (loadComponent_agrees q i (codec i) r bs).andThen ih

end Components

/-! ## The storage of a load that threw -/

/-- Wherever a load ended, the registry satisfies `P`. -/
def Loaded.Leaves (P : Registry ι Val → Prop) : Loaded ι Val → Prop
  | .done r _ | .threw r => P r
  | .undefined => True

theorem Loaded.Leaves.andThen {P : Registry ι Val → Prop} {x : Loaded ι Val}
    {f : Registry ι Val → Bytes → Loaded ι Val} (h : x.Leaves P)
    (hf : ∀ r bs, P r → (f r bs).Leaves P) : (x.andThen f).Leaves P := by
  cases x with
  | done r rest => exact hf r rest h
  | threw r => exact h
  | undefined => trivial

/-- The entity storage has no slot but real ones, and as many as are in use. -/
abbrev SoundStorage (r : Registry ι Val) : Prop := r.entities.Sound

theorem loadIdentifiers_leaves (n : Nat) {r : Registry ι Val} (hr : SoundStorage r) (bs : Bytes) :
    (loadIdentifiers n r bs).Leaves SoundStorage := by
  induction n generalizing r bs with
  | zero => exact hr
  | succ n ih =>
      unfold loadIdentifiers
      cases Entity.codec.dec bs with
      | none => exact hr
      | some x =>
          simp only
          cases h : r.entities.emplaceHint x.1 with
          | none => trivial
          | some y => exact ih (EntityStorage.emplaceHint_eq_some hr h).2.2.2.2 x.2

/-- What the entity chunk leaves: a storage with every identifier read so far, and when
it was complete an in-use count that nothing has checked. -/
def EntitiesRead : Loaded ι Val → Prop
  | .done r _ => ∃ (s : EntityStorage) (n : Nat), s.Sound ∧ r.entities = s.setFreeList n
  | .threw r => SoundStorage r
  | .undefined => True

theorem loadEntities_read {r : Registry ι Val} (hr : SoundStorage r) (bs : Bytes) :
    EntitiesRead (loadEntities r bs) := by
  unfold loadEntities
  cases Codec.u32.dec bs with
  | none => exact hr
  | some x =>
      simp only
      cases Codec.u32.dec x.2 with
      | none => exact hr
      | some y =>
          have hleaves := loadIdentifiers_leaves x.1.toNat hr y.2
          simp only
          cases hload : loadIdentifiers x.1.toNat r y.2 with
          | done r₁ rest =>
              rw [hload] at hleaves
              exact ⟨r₁.entities, y.1.toNat, hleaves, rfl⟩
          | threw r₁ =>
              rw [hload] at hleaves
              exact hleaves
          | undefined => trivial

section Components

variable [DecidableEq ι]

theorem loadEntries_leaves (i : ι) (c : Codec (Val i)) (n : Nat) {r : Registry ι Val}
    (hr : SoundStorage r) (bs : Bytes) : (loadEntries i c n r bs).Leaves SoundStorage := by
  induction n generalizing r bs with
  | zero => exact hr
  | succ n ih =>
      unfold loadEntries
      cases Entity.codec.dec bs with
      | none => exact hr
      | some x =>
          simp only
          split
          · exact ih hr x.2
          cases h : placeEntry r.entities x.1 with
          | none => trivial
          | some y =>
              have hy : y.2.Sound := placeEntry_sound hr h
              simp only
              cases c.dec x.2 with
              | none => exact hy
              | some z => exact ih hy z.2

theorem loadComponents_leaves (codec : ∀ i, Codec (Val i)) (cs : List ι) {r : Registry ι Val}
    (hr : SoundStorage r) (bs : Bytes) :
    (loadComponents codec cs r bs).Leaves SoundStorage := by
  induction cs generalizing r bs with
  | nil => exact hr
  | cons i cs ih =>
      refine Loaded.Leaves.andThen ?_ fun r bs hr ↦ ih hr bs
      unfold loadComponent
      cases Codec.u32.dec bs with
      | none => exact hr
      | some x => exact loadEntries_leaves i (codec i) _ hr x.2

/-! ## Loading a snapshot, whole and cut -/

/-- The component chunks of a sound registry load where the storage has its entities in
use, whichever components are listed and however often. -/
theorem exists_loadComponents (codec : ∀ i, Codec (Val i)) {src : Registry ι Val}
    (hsrc : src.Sound) (cs : List ι) {r : Registry ι Val} (hlive : r.live = src.live)
    (rest : Bytes) :
    ∃ r', loadComponents codec cs r (writeComponentsToSnapshot codec cs src ++ rest) =
      .done r' rest := by
  induction cs generalizing r with
  | nil => exact ⟨r, rfl⟩
  | cons i cs ih =>
      have hlt := Nat.lt_of_le_of_lt (length_pool_le hsrc i) (length_packed_lt src.entities)
      have hx : ∀ x ∈ src.pool i, r.entities.Contains x.1 ∧ ¬ x.1.IsNull := by
        intro x hx
        have hv : x.1 ∈ src.live := hsrc.live i x hx
        have hr : x.1 ∈ r.live := hlive ▸ hv
        exact ⟨EntityStorage.mem_packed_of_live hr,
          (hsrc.entities.real _ (EntityStorage.mem_packed_of_live hv)).1⟩
      have hchunk : loadComponent i (codec i) r (componentChunk (codec i) (src.pool i) ++
          (writeComponentsToSnapshot codec cs src ++ rest)) =
            .done { r with pool := Function.update r.pool i (r.pool i ++ src.pool i) }
              (writeComponentsToSnapshot codec cs src ++ rest) := by
        rw [componentChunk, countBytes, List.append_assoc, loadComponent, Codec.u32.dec_enc]
        simp only [toNat_count hlt]
        exact loadEntries_own _ (src.pool i) r _ hx
      rw [writeComponentsToSnapshot, List.flatMap_cons, List.append_assoc, loadComponents,
        ← writeComponentsToSnapshot, hchunk]
      exact ih (r := { r with pool := _ }) hlive

/-- A snapshot loads into a registry with nothing in it. -/
theorem exists_loadSnapshot (codec : ∀ i, Codec (Val i)) (cs : List ι) {src r : Registry ι Val}
    (hsrc : src.Sound) (hr : Vacant r) :
    ∃ r', loadSnapshot codec cs r (snapshotBytes codec cs src) = .done r' [] := by
  obtain ⟨s, -, hlive, hload⟩ := loadEntities_own hsrc.entities hr.entities hr.live
    (writeComponentsToSnapshot codec cs src)
  obtain ⟨r', hr'⟩ := exists_loadComponents codec hsrc cs
    (r := { r with entities := s }) hlive []
  refine ⟨r', ?_⟩
  rw [snapshotBytes, loadSnapshot, hload, Loaded.andThen_done]
  rwa [List.append_nil] at hr'

/-- A snapshot that was cut makes the loader throw, and what it has put into the storage
by then is in order. -/
theorem loadSnapshot_truncated (codec : ∀ i, Codec (Val i)) (cs : List ι)
    {src r : Registry ι Val} (hsrc : src.Sound) (hr : Vacant r) {p q : Bytes} (hq : q ≠ [])
    (h : p ++ q = snapshotBytes codec cs src) :
    ∃ r', loadSnapshot codec cs r p = .threw r' ∧ SoundStorage r' := by
  obtain ⟨s, hs, hlive, hload⟩ := loadEntities_own hsrc.entities hr.entities hr.live
    (writeComponentsToSnapshot codec cs src)
  rw [← snapshotBytes, ← h] at hload
  have hagrees := loadEntities_agrees q r p
  rw [hload] at hagrees
  unfold loadSnapshot
  cases hp : loadEntities r p with
  | undefined =>
      rw [hp] at hagrees
      cases hagrees
  | threw r' =>
      have hread := loadEntities_read hr.entities p
      rw [hp] at hread
      exact ⟨r', rfl, hread⟩
  | done r₁ rest =>
      -- the cut is behind the entity chunk
      rw [hp] at hagrees
      obtain ⟨rfl, hrest⟩ := Loaded.done.inj hagrees
      obtain ⟨r₂, hr₂⟩ := exists_loadComponents codec hsrc cs
        (r := { r with entities := s }) hlive []
      rw [List.append_nil, hrest] at hr₂
      have hagrees' := loadComponents_agrees q codec cs { r with entities := s } rest
      have hleaves := loadComponents_leaves codec cs (r := { r with entities := s }) hs rest
      rw [hr₂] at hagrees'
      rw [Loaded.andThen_done]
      cases hc : loadComponents codec cs { r with entities := s } rest with
      | undefined =>
          rw [hc] at hagrees'
          cases hagrees'
      | done r₃ rest' =>
          rw [hc] at hagrees'
          obtain ⟨-, hnil⟩ := Loaded.done.inj hagrees'
          exact absurd (List.append_eq_nil_iff.mp hnil.symm).2 hq
      | threw r' =>
          rw [hc] at hleaves
          exact ⟨r', rfl, hleaves⟩

/-! ## A file that was refused -/

/-- A load that threw has left the storage in order, unless it has read a count of
entities in use past the end of the array. -/
theorem sound_of_threw {codec : ∀ i, Codec (Val i)} {cs : List ι} {r r' : Registry ι Val}
    (hr : SoundStorage r) {bs : Bytes} (h : loadSnapshot codec cs r bs = .threw r')
    (hle : r'.entities.head ≤ r'.entities.packed.length) : SoundStorage r' := by
  have hread := loadEntities_read hr bs
  unfold loadSnapshot at h
  cases hload : loadEntities r bs with
  | undefined =>
      rw [hload] at h
      cases h
  | threw r₁ =>
      rw [hload] at h hread
      exact Loaded.threw.inj h ▸ hread
  | done r₁ rest =>
      rw [hload] at h hread
      obtain ⟨s, n, hs, hr₁⟩ := hread
      rw [Loaded.andThen_done] at h
      by_cases hn : n ≤ s.packed.length
      · have hr₁s : SoundStorage r₁ := by
          rw [SoundStorage, hr₁]
          exact ⟨hn, hs.real⟩
        have hleaves := loadComponents_leaves codec cs hr₁s rest
        rw [h] at hleaves
        exact hleaves
      · -- with the count past the end nothing is added, so it is past the end still
        have hfollows := loadComponents_follows codec cs r₁ rest
        have hgt : r₁.entities.packed.length < r₁.entities.head := by
          rw [hr₁]
          exact Nat.lt_of_not_le hn
        unfold Follows at hfollows
        cases hl : landEntries (parseComponents codec cs rest).1 r₁.entities with
        | none =>
            rw [hl, h] at hfollows
            cases hfollows
        | some x =>
            rw [hl] at hfollows
            cases hrest : (parseComponents codec cs rest).2 with
            | some rest' =>
                rw [hrest] at hfollows
                obtain ⟨r₂, hdone, -⟩ := hfollows
                cases h.symm.trans hdone
            | none =>
                rw [hrest] at hfollows
                obtain ⟨r₂, hthrew, hx⟩ := hfollows
                obtain rfl := Loaded.threw.inj (h.symm.trans hthrew)
                rw [hx, landEntries_of_head_gt hgt hl] at hle
                omega

/-- A registry a file was refused for has nothing in it, whatever the file was. -/
theorem vacant_of_error {codec : ∀ i, Codec (Val i)} {cs : List ι} {r r' : Registry ι Val}
    (hr : Vacant r) {content : Option Bytes} {version : UInt32} {e : SnapshotFileError}
    (h : readSnapshotFile codec cs content version r = .returned (.error e) r') : Vacant r' := by
  unfold readSnapshotFile at h
  split at h
  · obtain ⟨-, rfl⟩ := ReadOutcome.returned.inj h
    exact hr
  split at h
  · obtain ⟨-, rfl⟩ := ReadOutcome.returned.inj h
    exact hr
  split at h
  · obtain ⟨-, rfl⟩ := ReadOutcome.returned.inj h
    exact hr
  split at h
  · obtain ⟨-, rfl⟩ := ReadOutcome.returned.inj h
    exact hr
  unfold readArchive clearRegistry at h
  split at h
  · obtain ⟨h, -⟩ := ReadOutcome.returned.inj h
    cases h
  · rename_i r₁ hload
    by_cases hle : r₁.entities.head ≤ r₁.entities.packed.length
    · rw [if_pos hle] at h
      obtain ⟨-, rfl⟩ := ReadOutcome.returned.inj h
      exact ⟨(sound_of_threw hr.entities hload hle).eraseAll, rfl, fun _ ↦ rfl⟩
    · rw [if_neg hle] at h
      cases h
  · cases h

/-! ## Reading a file that was cut -/

variable {codec : ∀ i, Codec (Val i)} {cs : List ι} {r : Registry ι Val}

/-- The header as one value. -/
theorem image_eq_header (c : WriteCall) :
    c.image = (Codec.u32.pair Codec.u32).enc (snapshotFileMagic, c.version) ++ c.bytes := by
  rw [WriteCall.image, ← List.append_assoc]
  rfl

theorem length_header (c : WriteCall) :
    ((Codec.u32.pair Codec.u32).enc (snapshotFileMagic, c.version)).length = 8 := rfl

/-- Less than a header is refused before anything is loaded. -/
theorem readSnapshotFile_take_of_lt (c : WriteCall) {k : Nat} (hk : k < 8) :
    readSnapshotFile codec cs (some (c.image.take k)) c.version r =
      .returned (.error .badHeader) r := by
  have hlen := length_header c
  have htake : c.image.take k =
      ((Codec.u32.pair Codec.u32).enc (snapshotFileMagic, c.version)).take k := by
    rw [image_eq_header, List.take_append_of_le_length (by omega)]
  have hdrop : ((Codec.u32.pair Codec.u32).enc (snapshotFileMagic, c.version)).drop k ≠ [] := by
    intro hnil
    have := congrArg List.length hnil
    rw [List.length_drop, hlen, List.length_nil] at this
    omega
  have hdec := (Codec.u32.pair Codec.u32).dec_eq_none hdrop (List.take_append_drop k _)
  rw [htake, readSnapshotFile]
  simp only [hdec]

/-- With a whole header, what is behind it is read as an archive. -/
theorem readSnapshotFile_take_of_ge (c : WriteCall) {k : Nat} (hk : 8 ≤ k) :
    readSnapshotFile codec cs (some (c.image.take k)) c.version r =
      readArchive codec cs r (c.bytes.take (k - 8)) := by
  have htake : c.image.take k =
      WriteCall.image { c with bytes := c.bytes.take (k - 8) } := by
    rw [image_eq_header, image_eq_header, List.take_append, length_header,
      List.take_of_length_le (by rwa [length_header])]
  rw [htake]
  exact readSnapshotFile_image { c with bytes := c.bytes.take (k - 8) }

/-- Every truncation of a state file is refused, with `bad header` where less than a
header is left and with `archive error` everywhere else, and the registry has no entity
and no component afterwards; the file itself is read. -/
theorem truncated_file_refused (codec : ∀ i, Codec (Val i)) (cs : List ι)
    (src : Registry ι Val) (hsrc : Registry.system.Reachable src) (r : Registry ι Val)
    (hr : Vacant r) (path : String) (suffix : Nat) (version : UInt32)
    (fs fs' : FileSystem String) (w : List WriteLabel) (n : Nat)
    (hwrite : (writeSystem path ⟨snapshotBytes codec cs src, suffix, version⟩).Run
      (fs, .opening) w (fs', .returned (.ok n))) :
    ∃ file, fs'.content path = some file ∧
      (∀ k < file.length, ∃ r',
        readSnapshotFile codec cs (some (file.take k)) version r =
          .returned (.error (if k < 8 then .badHeader else .archiveError)) r' ∧
        r'.live = [] ∧ ∀ i, r'.pool i = []) ∧
      ∃ m r', readSnapshotFile codec cs (some file) version r = .returned (.ok m) r' := by
  obtain ⟨-, hcontent⟩ := content_of_run_ok hwrite
  have hsound := Registry.sound_of_reachable hsrc
  refine ⟨_, hcontent, ?_, ?_⟩
  · intro k hk
    by_cases hlt : k < 8
    · refine ⟨r, ?_, hr.live, hr.pool⟩
      rw [if_pos hlt]
      exact readSnapshotFile_take_of_lt _ hlt
    · rw [image_eq_header, List.length_append, length_header] at hk
      have hdrop : (snapshotBytes codec cs src).drop (k - 8) ≠ [] := by
        intro hnil
        have := congrArg List.length hnil
        rw [List.length_drop, List.length_nil] at this
        change k < 8 + (snapshotBytes codec cs src).length at hk
        omega
      obtain ⟨r', hload, hs⟩ := loadSnapshot_truncated codec cs hsound hr hdrop
        (List.take_append_drop (k - 8) _)
      refine ⟨r'.clear, ?_, rfl, fun _ ↦ rfl⟩
      rw [if_neg hlt]
      refine (readSnapshotFile_take_of_ge _ (Nat.le_of_not_lt hlt)).trans ?_
      rw [readArchive, hload]
      simp only [clearRegistry, if_pos hs.head_le]
  · obtain ⟨r', hload⟩ := exists_loadSnapshot codec cs hsound hr
    refine ⟨r'.entities.head, r', (readSnapshotFile_image _).trans ?_⟩
    rw [readArchive, hload]

end Components

open App in
/-- The application's file for two entities, of which one has a counter and a target. -/
theorem truncated_file_refused_two :
    ∃ (fs : FileSystem String) (file : Bytes), fs.content "state.bin" = some file ∧
      (∀ k < file.length, ∃ r' : Registry AppComponent (AppComponent.Value UInt32),
        readSnapshotFile (AppComponent.codec Codec.u32) appStateComponents (some (file.take k))
            appStateVersion .empty =
          .returned (.error (if k < 8 then .badHeader else .archiveError)) r' ∧
        r'.live = [] ∧ ∀ i, r'.pool i = []) ∧
      ∃ m r', readSnapshotFile (AppComponent.codec Codec.u32) appStateComponents (some file)
        appStateVersion (.empty : Registry AppComponent (AppComponent.Value UInt32)) =
          .returned (.ok m) r' := by
  let os : List (Registry.Op AppComponent (AppComponent.Value UInt32)) :=
    [.create, .create, .emplace .heartbeatCounter ⟨0, 0⟩ ⟨7⟩,
      .emplace .pointerFollow ⟨0, 0⟩ ⟨⟨1, 2, 3⟩, 8⟩]
  obtain ⟨src, hsrc⟩ : ∃ src, Registry.performAll os .empty = some src := ⟨_, rfl⟩
  obtain ⟨fs, w, hrun⟩ := exists_run_ok "state.bin"
    ⟨snapshotBytes (AppComponent.codec Codec.u32) appStateComponents src, 120, appStateVersion⟩
    .empty
  exact ⟨fs, truncated_file_refused (AppComponent.codec Codec.u32) appStateComponents src
    ⟨.empty, os, rfl, Registry.run_of_performAll hsrc⟩ .empty vacant_empty "state.bin" 120
    appStateVersion .empty fs w _ hrun⟩

end Konative.Ecs
