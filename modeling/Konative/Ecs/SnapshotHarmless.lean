import Konative.Ecs.SnapshotUntrusted

/-!
# Which files are harmless

What becomes of a file can be told from the identifiers that are written in it, as long as
none is in another's way.  Then each lands where it says, and a restore is safe if the
in-use count is no larger than the number of identifiers, no component type names an
entity twice, and none names one that was released (`restore_safe`).

An identifier that is in the way of another is not put where it says: EnTT hands out one
it was not asked for, and which one it is depends on the order of its array by then.
-/

universe u v

namespace Konative.Ecs

open Entt

variable {ι : Type u} {Val : ι → Type v}

/-! ## What is written in a file -/

/-- What is behind the header, if that is accepted. -/
def acceptedPayload (content : Option Bytes) (expectedVersion : UInt32) : Option Bytes :=
  match content.bind (Codec.u32.pair Codec.u32).dec with
  | none => none
  | some ((magic, version), payload) =>
      if magic = snapshotFileMagic ∧ version = expectedVersion then some payload else none

/-- Each of these is an identifier, and no two have the same slot. -/
structure Distinct (identifiers : List Entity) : Prop where
  real : ∀ e ∈ identifiers, ¬ e.IsNull ∧ ¬ e.IsTombstone
  nodup : (identifiers.map Entity.index).Nodup

/-- Each entry names an identifier, and no other version of one that is in use or of one
that another entry names. -/
structure Compatible (used : List Entity) (entries : List (ι × Entity)) : Prop where
  real : ∀ x ∈ entries, ¬ x.2.IsNull ∧ ¬ x.2.IsTombstone
  eq_of_used : ∀ x ∈ entries, ∀ e ∈ used, e.index = x.2.index → e = x.2
  eq_of_entry : ∀ x ∈ entries, ∀ y ∈ entries, x.2.index = y.2.index → x.2 = y.2

/-- The identifier is not in use: it is not among the first ones of the file, or it was left
in the storage and no identifier of the file has its slot. -/
def Released (s : EntityStorage) (identifiers : List Entity) (inUse : Nat) (e : Entity) : Prop :=
  e ∈ identifiers.drop inUse ∨ (s.Contains e ∧ e.index ∉ identifiers.map Entity.index)

namespace Archive

/-- No identifier is in the way of another. -/
def Unclashed (a : Archive ι) : Prop :=
  Distinct a.identifiers ∧ ∀ inUse entries complete, a.tail = some (inUse, entries, complete) →
    Compatible (a.identifiers.take inUse) entries

/-- The in-use count fits, and in a complete archive each component type names different
entities and none that was released. -/
def InOrder [DecidableEq ι] (s : EntityStorage) (a : Archive ι) : Prop :=
  ∀ inUse entries complete, a.tail = some (inUse, entries, complete) →
    inUse ≤ a.identifiers.length ∧
      (complete = true → ∀ i, (entitiesOf i entries).Nodup ∧
        ∀ e ∈ entitiesOf i entries, ¬ Released s a.identifiers inUse e)

end Archive

/-- The header is refused, or no identifier of the archive is in the way of another. -/
def Unclashed (codec : ∀ i, Codec (Val i)) (cs : List ι) (content : Option Bytes)
    (expectedVersion : UInt32) : Prop :=
  ∀ payload ∈ acceptedPayload content expectedVersion, (parseArchive codec cs payload).Unclashed

/-- The header is refused, or the archive is unclashed and in order, for a registry with
storage `s`. -/
def Harmless [DecidableEq ι] (codec : ∀ i, Codec (Val i)) (cs : List ι) (s : EntityStorage)
    (content : Option Bytes) (expectedVersion : UInt32) : Prop :=
  ∀ payload ∈ acceptedPayload content expectedVersion,
    (parseArchive codec cs payload).Unclashed ∧ (parseArchive codec cs payload).InOrder s

/-! ## Identifiers that land where they say -/

/-- Identifiers with slots of their own are in use afterwards, behind those that were. -/
theorem landIdentifiers_of_nodup {l : List Entity} {s : EntityStorage} (hs : s.Sound)
    (hnd : ((s.live ++ l).map Entity.index).Nodup) (hreal : ∀ e ∈ l, ¬ e.IsNull ∧ ¬ e.IsTombstone) :
    ∃ s', landIdentifiers l s = some s' ∧ s'.Sound ∧ s'.live = s.live ++ l ∧
      ∀ x, s'.Contains x ↔ x ∈ l ∨ (s.Contains x ∧ x.index ∉ l.map Entity.index) := by
  induction l generalizing s with
  | nil => exact ⟨s, rfl, hs, (List.append_nil _).symm, fun x ↦ by simp⟩
  | cons e l ih =>
      obtain ⟨⟨hn, ht⟩, hreal⟩ := List.forall_mem_cons.mp hreal
      have hsplit := hnd
      rw [List.map_append, List.map_cons] at hsplit
      have hb : ¬ s.Busy e := fun hm ↦
        List.disjoint_of_nodup_append hsplit hm List.mem_cons_self
      have hel : e.index ∉ l.map Entity.index :=
        (List.nodup_cons.mp (List.nodup_append.mp hsplit).2.1).1
      have hlive := EntityStorage.tryEmplace_live hs.head_le hb
      obtain ⟨s', hland, hsound, hlive', hcontains⟩ :=
        ih (hs.tryEmplace hb hn ht) (by rwa [hlive, List.append_assoc]) hreal
      refine ⟨s', ?_, hsound, by rw [hlive', hlive, List.append_assoc]; rfl, fun x ↦ ?_⟩
      · rw [landIdentifiers, EntityStorage.emplaceHint_eq hs.head_le hn ht hb, Option.bind_some]
        exact hland
      · rw [hcontains, EntityStorage.mem_tryEmplace, List.mem_cons, List.map_cons, List.mem_cons,
          not_or]
        constructor
        · rintro (hx | ⟨rfl | ⟨hx, hne⟩, hxl⟩)
          · exact .inl (.inr hx)
          · exact .inl (.inl rfl)
          · exact .inr ⟨hx, hne, hxl⟩
        · rintro ((rfl | hx) | ⟨hx, hne, hxl⟩)
          · exact .inr ⟨.inl rfl, hel⟩
          · exact .inl hx
          · exact .inr ⟨.inr ⟨hx, hne⟩, hxl⟩

/-- Entries that are compatible with what is in use land where they say; those of them whose
identifier the storage did not contain are in use afterwards. -/
theorem landEntries_of_compatible {l : List (ι × Entity)} {s : EntityStorage} (hs : s.Sound)
    (hl : Compatible s.live l) :
    ∃ s', landEntries l s = some (l, s') ∧
      ∀ x, s'.Valid x ↔ s.Valid x ∨ (x ∈ l.map Prod.snd ∧ ¬ s.Contains x) := by
  induction l generalizing s with
  | nil => exact ⟨s, rfl, fun x ↦ by simp⟩
  | cons y l ih =>
      obtain ⟨i, e⟩ := y
      obtain ⟨⟨hn, ht⟩, hreal⟩ := List.forall_mem_cons.mp hl.real
      by_cases he : s.Contains e
      · -- the component is put on it, and nothing else happens
        obtain ⟨s', hland, hvalid⟩ := ih hs
          ⟨hreal, fun x hx ↦ hl.eq_of_used x (List.mem_cons_of_mem _ hx),
            fun x hx z hz ↦ hl.eq_of_entry x (List.mem_cons_of_mem _ hx) z
              (List.mem_cons_of_mem _ hz)⟩
        refine ⟨s', ?_, fun x ↦ ?_⟩
        · rw [landEntries, placeEntry, if_pos he, Option.bind_some, hland]
          rfl
        · rw [hvalid, List.map_cons, List.mem_cons]
          refine or_congr_right (and_congr_left fun hx ↦ (or_iff_right ?_).symm)
          rintro rfl
          exact hx he
      · -- it gets the slot it names, which nothing in use has
        have hb : ¬ s.Busy e := by
          intro hm
          obtain ⟨x, hx, hxe⟩ := List.mem_map.mp hm
          obtain rfl := hl.eq_of_used (i, e) List.mem_cons_self x hx hxe
          exact he (EntityStorage.mem_packed_of_live hx)
        have hlive := EntityStorage.tryEmplace_live hs.head_le hb
        have hcompat : Compatible (s.tryEmplace e).live l := by
          refine ⟨hreal, fun x hx z hz hzx ↦ ?_, fun x hx z hz ↦
            hl.eq_of_entry x (List.mem_cons_of_mem _ hx) z (List.mem_cons_of_mem _ hz)⟩
          rw [hlive, List.mem_append, List.mem_singleton] at hz
          rcases hz with hz | rfl
          · exact hl.eq_of_used x (List.mem_cons_of_mem _ hx) z hz hzx
          · exact hl.eq_of_entry (i, z) List.mem_cons_self x (List.mem_cons_of_mem _ hx) hzx
        obtain ⟨s', hland, hvalid⟩ := ih (hs.tryEmplace hb hn ht) hcompat
        refine ⟨s', ?_, fun x ↦ ?_⟩
        · rw [landEntries, placeEntry, if_neg he,
            EntityStorage.emplaceHint_eq hs.head_le hn ht hb, Option.bind_some, hland]
          rfl
        · have hsame : ∀ {x}, x ∈ l.map Prod.snd → x.index = e.index → x = e := by
            intro x hx hxe
            obtain ⟨z, hz, rfl⟩ := List.mem_map.mp hx
            exact hl.eq_of_entry z (List.mem_cons_of_mem _ hz) (i, e) List.mem_cons_self hxe
          rw [hvalid, EntityStorage.Valid, hlive, List.mem_append, List.mem_singleton,
            EntityStorage.mem_tryEmplace, List.map_cons, List.mem_cons, not_or, not_and_not_right]
          constructor
          · rintro ((hx | rfl) | ⟨hx, hne, hcontains⟩)
            · exact .inl hx
            · exact .inr ⟨.inl rfl, he⟩
            · refine .inr ⟨.inr hx, fun hxs ↦ hne (hsame hx (hcontains hxs))⟩
          · rintro (hx | ⟨rfl | hx, hxs⟩)
            · exact .inl (.inl hx)
            · exact .inl (.inr rfl)
            · by_cases hxe : x = e
              · exact .inl (.inr hxe)
              · exact .inr ⟨hx, hxe, fun h ↦ absurd h hxs⟩

/-! ## When a restore is safe -/

section Safe

variable [DecidableEq ι] {s : EntityStorage} {a : Archive ι}

theorem mem_of_mem_entitiesOf {i : ι} {entries : List (ι × Entity)} {e : Entity}
    (h : e ∈ entitiesOf i entries) : e ∈ entries.map Prod.snd := by
  obtain ⟨x, hx, rfl⟩ := List.mem_map.mp h
  exact List.mem_map_of_mem (List.mem_of_mem_filter hx)

/-- Entries that land where they say settle if and only if no type names an entity twice or
one that was released. -/
theorem entriesSettle_iff (complete : Bool) {entries : List (ι × Entity)} {inUse : Nat}
    {s' : EntityStorage} (hids : Distinct a.identifiers) (hs' : s'.Sound)
    (hlive : s'.live = a.identifiers) (hle : inUse ≤ a.identifiers.length)
    (hcontains : ∀ x, s'.Contains x ↔
      x ∈ a.identifiers ∨ (s.Contains x ∧ x.index ∉ a.identifiers.map Entity.index))
    (hentries : Compatible (a.identifiers.take inUse) entries) :
    EntriesSettle (s'.setFreeList inUse) entries complete ↔
      (complete = true → ∀ i, (entitiesOf i entries).Nodup ∧
        ∀ e ∈ entitiesOf i entries, ¬ Released s a.identifiers inUse e) := by
  have hhead : s'.head = a.identifiers.length := by rw [← hlive, hs'.length_live]
  have hused : (s'.setFreeList inUse).live = a.identifiers.take inUse := by
    rw [← hlive, EntityStorage.live, EntityStorage.live, List.take_take, Nat.min_eq_left]
    · rfl
    · rwa [hhead]
  have hsound : (s'.setFreeList inUse).Sound :=
    ⟨(hle.trans (Nat.le_of_eq hhead.symm)).trans hs'.head_le, hs'.real⟩
  obtain ⟨s'', hland, hvalid⟩ := landEntries_of_compatible hsound (hused ▸ hentries)
  have hnodup : a.identifiers.Nodup := .of_map _ hids.nodup
  have hreleased : ∀ e ∈ entries.map Prod.snd,
      (s''.Valid e ↔ ¬ Released s a.identifiers inUse e) := by
    intro e he
    have hdisjoint : e ∈ a.identifiers.take inUse → e ∉ a.identifiers.drop inUse := by
      intro htake hdrop
      rw [← List.take_append_drop inUse a.identifiers] at hnodup
      exact List.disjoint_of_nodup_append hnodup htake hdrop
    have hpacked : (s'.setFreeList inUse).Contains e ↔ s'.Contains e := .rfl
    have hmem : e ∈ a.identifiers ↔
        e ∈ a.identifiers.take inUse ∨ e ∈ a.identifiers.drop inUse := by
      rw [← List.mem_append, List.take_append_drop]
    rw [hvalid, EntityStorage.Valid, hused, hpacked, hcontains, hmem, Released]
    by_cases htake : e ∈ a.identifiers.take inUse
    · have hindex : e.index ∈ a.identifiers.map Entity.index :=
        List.mem_map_of_mem (List.mem_of_mem_take htake)
      exact iff_of_true (.inl htake) fun h ↦ h.elim (hdisjoint htake) fun h ↦ h.2 hindex
    · rw [or_iff_right htake, or_iff_right htake]
      exact and_iff_right he
  unfold EntriesSettle
  rw [hland]
  refine imp_congr_right fun _ ↦ forall_congr' fun i ↦ and_congr_right fun _ ↦
    forall₂_congr fun e he ↦ hreleased e (mem_of_mem_entitiesOf he)

/-- An archive in which no identifier is in another's way settles if it is in order, and in a
storage without slots only then. -/
theorem archiveSettles_iff (hs : s.Sound) (hlive : s.live = []) (h : a.Unclashed) :
    (a.InOrder s → ArchiveSettles s a) ∧
      (s.packed = [] → ArchiveSettles s a → a.InOrder s) := by
  obtain ⟨hids, htail⟩ := h
  obtain ⟨s', hland, hs', hlive', hcontains⟩ := landIdentifiers_of_nodup hs
    (by rw [hlive, List.nil_append]; exact hids.nodup) hids.real
  rw [hlive, List.nil_append] at hlive'
  unfold ArchiveSettles
  rw [hland]
  cases ht : a.tail with
  | none => exact ⟨fun _ ↦ trivial, fun _ _ inUse entries complete hsome ↦ nomatch ht ▸ hsome⟩
  | some tail =>
      obtain ⟨inUse, entries, complete⟩ := tail
      have hsettle := fun hle ↦ entriesSettle_iff complete hids hs' hlive' hle
        hcontains (htail inUse entries complete ht)
      constructor
      · intro horder
        obtain ⟨hle, hentries⟩ := horder inUse entries complete ht
        refine ⟨hle.trans ?_, (hsettle hle).mpr hentries⟩
        rw [← hlive', hs'.length_live]
        exact hs'.head_le
      · intro hempty hsettles inUse' entries' complete' hsome
        obtain ⟨rfl, h⟩ := Prod.mk.inj (Option.some.inj (ht.symm.trans hsome))
        obtain ⟨rfl, rfl⟩ := Prod.mk.inj h
        have hsub : s'.packed ⊆ a.identifiers := by
          intro x hx
          rcases (hcontains x).mp hx with hx | ⟨hx, -⟩
          · exact hx
          · rw [EntityStorage.Contains, hempty] at hx
            cases hx
        have hle := hsettles.1.trans (s'.nodup_packed.subperm hsub).length_le
        exact ⟨hle, (hsettle hle).mp hsettles.2⟩

variable {codec : ∀ i, Codec (Val i)} {cs : List ι} {r : Registry ι Val} {content : Option Bytes}
  {expectedVersion : UInt32}

/-- Where the header is refused nothing is loaded. -/
theorem readSnapshotFile_of_none (codec : ∀ i, Codec (Val i)) (cs : List ι) (r : Registry ι Val)
    (h : acceptedPayload content expectedVersion = none) :
    ∃ e, readSnapshotFile codec cs content expectedVersion r = .returned (.error e) r := by
  unfold acceptedPayload at h
  unfold readSnapshotFile
  cases content with
  | none => exact ⟨_, rfl⟩
  | some bs =>
      rw [Option.bind_some] at h
      cases hdec : (Codec.u32.pair Codec.u32).dec bs with
      | none => exact ⟨.badHeader, by simp only [hdec]⟩
      | some x =>
          obtain ⟨⟨magic, version⟩, payload⟩ := x
          simp only [hdec, ite_eq_right_iff, reduceCtorEq, imp_false] at h
          simp only [hdec]
          by_cases hm : magic = snapshotFileMagic
          · rw [if_neg (not_not.mpr hm), if_pos fun hv ↦ h ⟨hm, hv⟩]
            exact ⟨_, rfl⟩
          · rw [if_pos hm]
            exact ⟨_, rfl⟩

/-- Where it is accepted the archive behind it is read. -/
theorem readSnapshotFile_of_some {payload : Bytes}
    (h : acceptedPayload content expectedVersion = some payload) :
    readSnapshotFile codec cs content expectedVersion r = readArchive codec cs r payload := by
  unfold acceptedPayload at h
  unfold readSnapshotFile
  cases content with
  | none => cases h
  | some bs =>
      rw [Option.bind_some] at h
      cases hdec : (Codec.u32.pair Codec.u32).dec bs with
      | none =>
          simp only [hdec] at h
          cases h
      | some x =>
          obtain ⟨⟨magic, version⟩, payload'⟩ := x
          simp only [hdec, Option.ite_none_right_eq_some, Option.some.injEq] at h
          obtain ⟨⟨hm, hv⟩, rfl⟩ := h
          simp only [hdec]
          rw [if_neg (not_not.mpr hm), if_neg (not_not.mpr hv)]

end Safe

/-! ## Two files that decode -/

open App

/-- A state file of the application with one identifier, five of it said to be in
use, and no components. -/
def overcountedFile : Bytes :=
  WriteCall.image ⟨countBytes 1 ++ countBytes 5 ++
    Entity.codec.enc (EntityStorage.entityAt 0 (by decide)) ++ countBytes 0 ++
    countBytes 0 ++ countBytes 0, 120, appStateVersion⟩

/-- Three identifiers, of slots 0, 2 and 1 in versions 0, 1 and 3, the last of them released;
counters of the other two; an erased target, that of the second entity and that of one the
entity chunk does not have. -/
def harmlessFile : Bytes :=
  WriteCall.image ⟨countBytes 3 ++ countBytes 2 ++
    [0x000000, 0x100002, 0x300001].flatMap Codec.u32.enc ++
    countBytes 2 ++ entryBytes HeartbeatCounter.codec (.ofIntegral 0x000000, ⟨7⟩) ++
      entryBytes HeartbeatCounter.codec (.ofIntegral 0x100002, ⟨9⟩) ++
    countBytes 0 ++
    countBytes 3 ++ Codec.u32.enc 0x0FFFFF ++
      entryBytes (PointerFollow.codec Codec.u32) (.ofIntegral 0x100002, ⟨⟨1, 2, 3⟩, 8⟩) ++
      entryBytes (PointerFollow.codec Codec.u32) (.ofIntegral 0x000005, ⟨⟨4, 5, 6⟩, 8⟩),
    120, appStateVersion⟩

/-- What it names. -/
def harmlessArchive : Archive AppComponent where
  identifiers := [.ofIntegral 0x000000, .ofIntegral 0x100002, .ofIntegral 0x300001]
  tail := some (2,
    [(.heartbeatCounter, .ofIntegral 0x000000), (.heartbeatCounter, .ofIntegral 0x100002),
      (.pointerFollow, .ofIntegral 0x100002), (.pointerFollow, .ofIntegral 0x000005)], true)

theorem harmless_harmlessFile : Harmless (AppComponent.codec Codec.u32) appStateComponents .empty
    (some harmlessFile) appStateVersion := by
  have hunclashed : harmlessArchive.Unclashed := by
    refine ⟨⟨by decide, by decide⟩, ?_⟩
    rintro _ _ _ ⟨⟩
    exact ⟨by decide, by decide, by decide⟩
  have horder : harmlessArchive.InOrder .empty := by
    rintro _ _ _ ⟨⟩
    refine ⟨by decide, fun _ i ↦ ?_⟩
    cases i <;> exact ⟨by decide, by simp only [Released]; decide⟩
  rintro _ ⟨⟩
  exact ⟨hunclashed, horder⟩

theorem unclashed_overcountedFile :
    Unclashed (AppComponent.codec Codec.u32) appStateComponents (some overcountedFile)
      appStateVersion := by
  rintro _ ⟨⟩
  refine ⟨⟨by decide, by decide⟩, ?_⟩
  rintro _ _ _ ⟨⟩
  exact ⟨nofun, nofun, nofun⟩

end Konative.Ecs
