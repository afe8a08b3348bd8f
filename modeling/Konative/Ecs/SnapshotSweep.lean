import Konative.Ecs.SnapshotFile
import Konative.Lib.DirTree

/-!
# The sweep of orphaned temporary files

`cleanup_orphaned_snapshot_temp_files` over the directories of the file system, with the two
ways in which the name of a temporary file is come by: a write appends to the path, the sweep
takes the path apart and looks for a prefix in the directory part.

The two agree wherever there is a directory part.  A bare file name has none: its file lies in
the current directory, and the sweep opens the empty path, which no directory has.  And the
iterator is opened with an error code but advanced without one, so an error on the way is
thrown.
-/

namespace Konative.Ecs.Sweep

open Path

universe v

/-- What fails in a sweep: opening the directory, with reading its first entry; advancing the
iterator for the `i`-th time; removing an entry. -/
structure Faults where
  opens : Bool
  advances : Nat → Bool
  removes : List Char → Bool

/-- Nothing fails. -/
def Faults.Nothing (f : Faults) : Prop :=
  f.opens = true ∧ (∀ i, f.advances i = true) ∧ ∀ n, f.removes n = true

/-- `final_path.filename().string() + ".tmp"`. -/
def tempPrefix (path : String) : List Char := filename '/' path.toList ++ ".tmp".toList

section Sweep

variable {D : Type v} [DecidableEq D]

/-- The body of the loop, for one entry of the directory `d`. -/
def visit (path : String) (f : Faults) (d : D) (t : DirTree D Char) (entryName : List Char) :
    DirTree D Char :=
  if (tempPrefix path).isPrefixOf entryName && f.removes entryName then t.remove d entryName else t

/-- `cleanup_orphaned_snapshot_temp_files(path)`: whether it returns, and what it leaves. -/
def cleanupOrphanedSnapshotTempFiles (path : String) (f : Faults) (t : DirTree D Char) :
    Bool × DirTree D Char :=
  match if f.opens then t.openDir '/' (parentPath '/' path.toList) else none with
  | none => (true, t)
  | some d => DirTree.forEntries f.advances (visit path f d) 0 (t.entries d) t

/-! ## What it is for -/

/-- The sweep is total, minimal and complete. -/
structure Sweeps (path : String) (f : Faults) (t : DirTree D Char) : Prop where
  returns : (cleanupOrphanedSnapshotTempFiles path f t).1 = true
  /-- What is removed is beside `path`, and its name begins as those of temporary files do. -/
  minimal : ∀ d n, n ∈ t.entries d →
    n ∉ (cleanupOrphanedSnapshotTempFiles path f t).2.entries d →
      (∃ m, t.locate '/' path.toList = some (d, m)) ∧ tempPrefix path <+: n
  /-- `path` itself stays. -/
  keeps : ∀ d n, t.locate '/' path.toList = some (d, n) → n ∈ t.entries d →
    n ∈ (cleanupOrphanedSnapshotTempFiles path f t).2.entries d
  /-- No temporary file of a write to `path` is left. -/
  complete : f.Nothing → ∀ (u : UInt64) d n,
    t.locate '/' (tempPath path u.toNat).toList = some (d, n) →
      n ∉ (cleanupOrphanedSnapshotTempFiles path f t).2.entries d

/-! ## The temporary file of a write -/

section Temporary

omit [DecidableEq D]

theorem toList_tempPath (path : String) (u : Nat) :
    (tempPath path u).toList = path.toList ++ (".tmp".toList ++ Nat.toDigits 10 u) := by
  have hrepr : (Nat.repr u).toList = Nat.toDigits 10 u := String.toList_ofList
  rw [tempPath, String.toList_append, String.toList_append, List.append_assoc, hrepr]

/-- Neither the digits of the suffix nor what stands before them separates components. -/
theorem sep_notMem_suffix (u : Nat) : '/' ∉ ".tmp".toList ++ Nat.toDigits 10 u := by
  rw [List.mem_append, not_or]
  constructor
  · decide
  · intro h
    have hdigit := Nat.isDigit_of_mem_toDigits (by decide) (by decide) h
    exact absurd hdigit (by decide)

/-- A temporary file is beside the file it is to replace, under a name with the prefix. -/
theorem locate_tempPath (t : DirTree D Char) (path : String) (u : Nat) :
    t.locate '/' (tempPath path u).toList = (t.walk '/' (dirPart '/' path.toList)).map
      fun d ↦ (d, tempPrefix path ++ Nat.toDigits 10 u) := by
  rw [toList_tempPath, DirTree.locate_append t (sep_notMem_suffix u), tempPrefix,
    List.append_assoc]

/-- The temporary file of a bare name is in the current directory. -/
theorem locate_tempPath_of_bare (t : DirTree D Char) {path : String}
    (h : dirPart '/' path.toList = []) (u : Nat) :
    t.locate '/' (tempPath path u).toList = some (t.cwd, (tempPath path u).toList) := by
  rw [locate_tempPath, h, DirTree.walk_nil, Option.map_some, tempPrefix,
    filename_of_dirPart_nil h, toList_tempPath, List.append_assoc]

/-- The file itself does not have the prefix. -/
theorem not_tempPrefix_self (path : String) :
    ¬ tempPrefix path <+: filename '/' path.toList := by
  intro h
  have hle := h.length_le
  have ht : ".tmp".toList.length = 4 := rfl
  rw [tempPrefix, List.length_append, ht] at hle
  omega

/-- The directory opened under a path is the one the file is in. -/
theorem walk_of_openDir {t : DirTree D Char} {path : String} {d : D}
    (h : t.openDir '/' (parentPath '/' path.toList) = some d) :
    t.walk '/' (dirPart '/' path.toList) = some d := by
  by_cases hd : dirPart '/' path.toList = []
  · rw [DirTree.openDir_parentPath_of_bare t hd] at h
    cases h
  · rw [DirTree.openDir_parentPath t hd] at h
    exact h

end Temporary

/-! ## One visit and the loop -/

section Visits

variable {path : String} {f : Faults} {d d' : D} {t : DirTree D Char} {n e : List Char}

/-- A visit removes the entry it visits, where it has the prefix and can be removed. -/
theorem mem_visit : n ∈ (visit path f d t e).entries d' ↔
    n ∈ t.entries d' ∧ ¬ (d' = d ∧ n = e ∧ tempPrefix path <+: e ∧ f.removes e = true) := by
  unfold visit
  split
  · rename_i h
    rw [Bool.and_eq_true, List.isPrefixOf_iff_prefix] at h
    rw [DirTree.mem_entries_remove]
    simp only [h.1, h.2, and_true]
  · rename_i h
    rw [Bool.and_eq_true, List.isPrefixOf_iff_prefix] at h
    constructor
    · intro hn
      exact ⟨hn, fun hx ↦ h hx.2.2⟩
    · exact And.left

/-- The visits to some entries remove those with the prefix that can be removed. -/
theorem mem_foldl_visit {es : List (List Char)} :
    n ∈ (es.foldl (visit path f d) t).entries d' ↔ n ∈ t.entries d' ∧
      ¬ (d' = d ∧ n ∈ es ∧ tempPrefix path <+: n ∧ f.removes n = true) := by
  induction es generalizing t with
  | nil => simp only [List.foldl_nil, List.not_mem_nil, false_and, and_false, not_false_eq_true,
      and_true]
  | cons e es ih =>
      rw [List.foldl_cons, ih, mem_visit, and_assoc, and_congr_right_iff]
      intro _
      rw [← not_or, not_congr]
      constructor
      · rintro (⟨hd, rfl, hp, hr⟩ | ⟨hd, hn, hp, hr⟩)
        · exact ⟨hd, List.mem_cons_self, hp, hr⟩
        · exact ⟨hd, List.mem_cons_of_mem _ hn, hp, hr⟩
      · rintro ⟨hd, hn, hp, hr⟩
        rcases List.mem_cons.mp hn with rfl | hn
        · exact .inl ⟨hd, rfl, hp, hr⟩
        · exact .inr ⟨hd, hn, hp, hr⟩

end Visits

/-! ## The sweep -/

section Outcomes

variable {path : String} {f : Faults} {d : D} {t : DirTree D Char}

/-- The directory is not opened. -/
theorem cleanup_of_unopened
    (h : f.opens = true → t.openDir '/' (parentPath '/' path.toList) = none) :
    cleanupOrphanedSnapshotTempFiles path f t = (true, t) := by
  unfold cleanupOrphanedSnapshotTempFiles
  by_cases ho : f.opens = true
  · rw [if_pos ho, h ho]
  · rw [if_neg ho]

theorem cleanup_of_opened (ho : f.opens = true)
    (h : t.openDir '/' (parentPath '/' path.toList) = some d) :
    cleanupOrphanedSnapshotTempFiles path f t =
      DirTree.forEntries f.advances (visit path f d) 0 (t.entries d) t := by
  unfold cleanupOrphanedSnapshotTempFiles
  rw [if_pos ho, h]

/-- Whatever fails, what the sweep removes is a sibling with the prefix. -/
theorem cleanup_minimal {d' : D} {n : List Char} (hn : n ∈ t.entries d')
    (h : n ∉ (cleanupOrphanedSnapshotTempFiles path f t).2.entries d') :
    t.walk '/' (dirPart '/' path.toList) = some d' ∧ tempPrefix path <+: n := by
  by_cases ho : f.opens = true
  · cases hd : t.openDir '/' (parentPath '/' path.toList) with
    | none =>
        rw [cleanup_of_unopened fun _ ↦ hd] at h
        exact absurd hn h
    | some d =>
        rw [cleanup_of_opened ho hd] at h
        by_contra hno
        apply h
        -- every visit leaves the entry in place
        refine DirTree.forEntries_keeps (P := fun s : DirTree D Char ↦ n ∈ s.entries d') ?_ hn
        intro s e hs
        rw [mem_visit]
        refine ⟨hs, ?_⟩
        rintro ⟨rfl, rfl, hp, -⟩
        exact hno ⟨walk_of_openDir hd, hp⟩
  · rw [cleanup_of_unopened fun h ↦ absurd h ho] at h
    exact absurd hn h

theorem cleanup_keeps {n : List Char} (hl : t.locate '/' path.toList = some (d, n))
    (hn : n ∈ t.entries d) : n ∈ (cleanupOrphanedSnapshotTempFiles path f t).2.entries d := by
  by_contra h
  have hp := (cleanup_minimal hn h).2
  obtain ⟨d', -, he⟩ := Option.map_eq_some_iff.mp hl
  obtain ⟨-, rfl⟩ := Prod.mk.inj he
  exact not_tempPrefix_self path hp

/-- The sweep returns when every advance it makes succeeds. -/
theorem cleanup_returns_iff : (cleanupOrphanedSnapshotTempFiles path f t).1 = true ↔
    (f.opens = true → ∀ d, t.openDir '/' (parentPath '/' path.toList) = some d →
      ∀ i < (t.entries d).length, f.advances i = true) := by
  by_cases ho : f.opens = true
  · cases hd : t.openDir '/' (parentPath '/' path.toList) with
    | none =>
        rw [cleanup_of_unopened fun _ ↦ hd]
        constructor
        · rintro - - d ⟨⟩
        · intro _
          rfl
    | some d =>
        rw [cleanup_of_opened ho hd, DirTree.forEntries_fst_iff]
        simp only [Nat.zero_add]
        constructor
        · rintro h - d' hd'
          obtain rfl := Option.some.inj hd'
          exact h
        · intro h
          exact h ho d rfl
  · rw [cleanup_of_unopened fun h ↦ absurd h ho]
    exact ⟨fun _ h ↦ absurd h ho, fun _ ↦ rfl⟩

/-- A sweep that returns has removed the entries with the prefix that can be removed. -/
theorem mem_cleanup (ho : f.opens = true)
    (hd : t.openDir '/' (parentPath '/' path.toList) = some d)
    (hr : (cleanupOrphanedSnapshotTempFiles path f t).1 = true) {n : List Char} :
    n ∈ (cleanupOrphanedSnapshotTempFiles path f t).2.entries d ↔
      n ∈ t.entries d ∧ ¬ (tempPrefix path <+: n ∧ f.removes n = true) := by
  rw [cleanup_of_opened ho hd] at hr ⊢
  rw [DirTree.forEntries_snd hr, mem_foldl_visit, and_congr_right_iff]
  intro hn
  rw [not_congr]
  constructor
  · rintro ⟨-, -, h⟩
    exact h
  · intro h
    exact ⟨rfl, hn, h⟩

end Outcomes

/-- The sweep does what it is for when the iterator can be advanced past every entry, and,
for a bare file name, when the current directory has none of its temporary files. -/
theorem sweeps_iff (path : String) (f : Faults) (t : DirTree D Char) : Sweeps path f t ↔
    (f.opens = true → ∀ d, t.openDir '/' (parentPath '/' path.toList) = some d →
      ∀ i < (t.entries d).length, f.advances i = true) ∧
    (dirPart '/' path.toList = [] → f.Nothing →
      ∀ u : UInt64, (tempPath path u.toNat).toList ∉ t.entries t.cwd) := by
  constructor
  · intro h
    refine ⟨cleanup_returns_iff.mp h.returns, fun hbare hf u hu ↦ ?_⟩
    apply h.complete hf u _ _ (locate_tempPath_of_bare t hbare u.toNat)
    rw [cleanup_of_unopened fun _ ↦ DirTree.openDir_parentPath_of_bare t hbare]
    exact hu
  · rintro ⟨hadv, hbare⟩
    have hret := cleanup_returns_iff.mpr hadv
    refine ⟨hret, fun d n hn h ↦ ?_, fun d n hl hn ↦ cleanup_keeps hl hn, fun hf u d n hl ↦ ?_⟩
    · obtain ⟨hw, hp⟩ := cleanup_minimal hn h
      refine ⟨⟨filename '/' path.toList, ?_⟩, hp⟩
      rw [DirTree.locate, hw, Option.map_some]
    · by_cases hdir : dirPart '/' path.toList = []
      · rw [locate_tempPath_of_bare t hdir] at hl
        obtain ⟨rfl, rfl⟩ := Prod.mk.inj (Option.some.inj hl)
        rw [cleanup_of_unopened fun _ ↦ DirTree.openDir_parentPath_of_bare t hdir]
        exact hbare hdir hf u
      · rw [locate_tempPath] at hl
        obtain ⟨d', hd', he⟩ := Option.map_eq_some_iff.mp hl
        obtain ⟨rfl, rfl⟩ := Prod.mk.inj he
        rw [← DirTree.openDir_parentPath t hdir] at hd'
        rw [mem_cleanup hf.1 hd' hret]
        rintro ⟨-, h⟩
        exact h ⟨List.prefix_append _ _, hf.2.2 _⟩

/-- A directory `true` under the root `false`, the current one as well. -/
def oneDirectory (names : List String) : DirTree Bool Char where
  root := false
  cwd := true
  child _ _ := some true
  entries d := if d then names.map String.toList else []

/-- A bare file name is not swept, and an iterator that fails on its way throws. -/
theorem not_sweeps :
    ¬ Sweeps "state.bin" ⟨true, fun _ ↦ true, fun _ ↦ true⟩ (oneDirectory ["state.bin.tmp60"]) ∧
      ¬ Sweeps "/data/state.bin" ⟨true, fun _ ↦ false, fun _ ↦ true⟩
        (oneDirectory ["state.bin"]) := by
  constructor
  · intro h
    exact h.complete ⟨rfl, fun _ ↦ rfl, fun _ ↦ rfl⟩ 60 true "state.bin.tmp60".toList
      (by decide) (by decide)
  · intro h
    exact absurd h.returns (by decide)

/-! ## The sweep of a file system of names -/

/-- The name of an entry of the directory of `path`, written as `path` is. -/
def nameBeside (path : String) (e : List Char) : String :=
  String.ofList (dirPart '/' path.toList ++ e)

theorem isTempOf_nameBeside (path : String) (e : List Char) :
    isTempOf path (nameBeside path e) = (tempPrefix path).isPrefixOf e := by
  have hpath : (path ++ ".tmp").toList = dirPart '/' path.toList ++ tempPrefix path := by
    rw [String.toList_append, tempPrefix, ← List.append_assoc, dirPart_append_filename]
  have hname : (nameBeside path e).toList = dirPart '/' path.toList ++ e := String.toList_ofList
  rw [Bool.eq_iff_iff, isTempOf, hpath, hname, List.isPrefixOf_iff_prefix,
    List.isPrefixOf_iff_prefix, List.prefix_append_right_inj]

theorem nameBeside_injective (path : String) : Function.Injective (nameBeside path) :=
  fun _ _ h ↦ List.append_cancel_left (String.ofList_injective h)

/-- A sweep that returns removes of the directory what the sweep of the names removes. -/
theorem cleanup_refines {path : String} {f : Faults} {t : DirTree D Char} {d : D}
    (ho : f.opens = true) (hd : t.openDir '/' (parentPath '/' path.toList) = some d)
    (hr : (cleanupOrphanedSnapshotTempFiles path f t).1 = true) {fs : FileSystem String}
    (hfs : ∀ e ∈ t.entries d, fs.entry (nameBeside path e) ≠ none) {e : List Char}
    (he : e ∈ t.entries d) :
    e ∈ (cleanupOrphanedSnapshotTempFiles path f t).2.entries d ↔
      (Ecs.cleanupOrphanedSnapshotTempFiles path
        ((t.entries d).map fun e ↦ (nameBeside path e, f.removes e)) fs).entry
          (nameBeside path e) ≠ none := by
  rw [mem_cleanup ho hd hr, ne_eq, entry_cleanup_eq_none_iff, isTempOf_nameBeside,
    List.isPrefixOf_iff_prefix, List.mem_map]
  simp only [he, true_and, hfs e he, false_or]
  rw [not_congr]
  constructor
  · rintro ⟨hp, hrem⟩
    exact ⟨⟨e, he, by rw [hrem]⟩, hp⟩
  · rintro ⟨⟨e', -, heq⟩, hp⟩
    obtain ⟨hname, hrem⟩ := Prod.mk.inj heq
    rw [nameBeside_injective path hname] at hrem
    exact ⟨hp, hrem⟩

end Sweep

end Konative.Ecs.Sweep
