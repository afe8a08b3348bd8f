import Mathlib.Logic.Function.Basic
import Mathlib.Data.List.Basic

/-!
# A file system of names and inodes

Names are linked to inodes and inodes hold bytes.  The split is what makes a
rename atomic and a reader safe from it: renaming moves a link and touches no
byte, so a reader that opened the old inode keeps reading the old bytes.

A `FileSystem` carries two facts about itself: every linked inode was allocated,
and no inode has two names.  The second says that there are no hard links; no
operation below creates one.

The operations are the ones a program that writes files performs:

* `openTrunc` — open for writing, creating the file or emptying it;
* `pwrite` — write some bytes at an offset of an open inode;
* `rename` — replace the target's link, the only operation that changes what a
  name means without touching bytes;
* `unlink` — remove a name.
-/

universe u

/-- A byte string. -/
abbrev Bytes := List UInt8

/-- A file system over the names `Name`. -/
structure FileSystem (Name : Type u) where
  /-- The inode a name is linked to. -/
  entry : Name → Option Nat
  /-- The bytes of an inode. -/
  data : Nat → Bytes
  /-- The next inode to be allocated. -/
  fresh : Nat
  entry_lt : ∀ {n : Name} {i : Nat}, entry n = some i → i < fresh
  entry_inj : ∀ {m n : Name} {i : Nat}, entry m = some i → entry n = some i → m = n

namespace FileSystem

variable {Name : Type u}

/-- What a reader that opens `n` and reads it to the end finds. -/
def content (fs : FileSystem Name) (n : Name) : Option Bytes := (fs.entry n).map fs.data

/-- The file system with no files. -/
def empty : FileSystem Name where
  entry _ := none
  data _ := []
  fresh := 0
  entry_lt h := nomatch h
  entry_inj h := nomatch h

theorem content_eq_some {fs : FileSystem Name} {n : Name} {i : Nat} (h : fs.entry n = some i) :
    fs.content n = some (fs.data i) := by rw [content, h]; rfl

theorem content_eq_none {fs : FileSystem Name} {n : Name} (h : fs.entry n = none) :
    fs.content n = none := by rw [content, h]; rfl

/-- The bytes `d` with `bs` written over them at the offset `off`; a hole before
the offset reads as zeros. -/
def overwrite (d : Bytes) (off : Nat) (bs : Bytes) : Bytes :=
  d.take off ++ List.replicate (off - d.length) 0 ++ bs ++ d.drop (off + bs.length)

/-- Writing at the end appends. -/
theorem overwrite_length (d bs : Bytes) : overwrite d d.length bs = d ++ bs := by
  simp [overwrite]

/-! ## Changes confined to one name -/

/-- `fs'` differs from `fs` at most in the file named `n`: other links are the
same, and so are the bytes of every inode that existed and was not linked to `n`. -/
structure ChangesOnly (fs fs' : FileSystem Name) (n : Name) : Prop where
  entry : ∀ {m}, m ≠ n → fs'.entry m = fs.entry m
  data : ∀ {j}, j < fs.fresh → fs.entry n ≠ some j → fs'.data j = fs.data j
  /-- No inode that existed is linked to `n` now and was not before. -/
  link : ∀ {j}, fs'.entry n = some j → j < fs.fresh → fs.entry n = some j
  fresh_le : fs.fresh ≤ fs'.fresh

theorem ChangesOnly.refl (fs : FileSystem Name) (n : Name) : ChangesOnly fs fs n :=
  ⟨fun _ ↦ rfl, fun _ _ ↦ rfl, fun h _ ↦ h, Nat.le_refl _⟩

/-- The file named `n` is the same in `fs` and `fs'`: its link and its bytes. -/
structure SameFile (fs fs' : FileSystem Name) (n : Name) : Prop where
  entry : fs'.entry n = fs.entry n
  data : ∀ {i}, fs.entry n = some i → fs'.data i = fs.data i

theorem SameFile.content {fs fs' : FileSystem Name} {n : Name} (h : SameFile fs fs' n) :
    fs'.content n = fs.content n := by
  cases hi : fs.entry n with
  | none => rw [content_eq_none (h.entry.trans hi), content_eq_none hi]
  | some i => rw [content_eq_some (h.entry.trans hi), content_eq_some hi, h.data hi]

/-- A change confined to one name leaves every other file the same. -/
theorem ChangesOnly.sameFile {fs fs' : FileSystem Name} {m n : Name} (h : ChangesOnly fs fs' n)
    (hm : m ≠ n) : SameFile fs fs' m :=
  ⟨h.entry hm, fun hi ↦ h.data (fs.entry_lt hi) fun hn ↦ hm (fs.entry_inj hi hn)⟩

/-! ## Writing -/

/-- Write `bs` at the offset `off` of the inode `i`. -/
def pwrite (fs : FileSystem Name) (i off : Nat) (bs : Bytes) : FileSystem Name :=
  { fs with data := Function.update fs.data i (overwrite (fs.data i) off bs) }

@[simp] theorem pwrite_data_self (fs : FileSystem Name) (i off : Nat) (bs : Bytes) :
    (fs.pwrite i off bs).data i = overwrite (fs.data i) off bs :=
  Function.update_self ..

theorem pwrite_data_of_ne {fs : FileSystem Name} {i j : Nat} (h : j ≠ i) (off : Nat) (bs : Bytes) :
    (fs.pwrite i off bs).data j = fs.data j :=
  Function.update_of_ne h ..

/-- A write to the inode linked to `n` changes the file `n` only. -/
theorem pwrite_changesOnly {fs : FileSystem Name} {n : Name} {i : Nat} (h : fs.entry n = some i)
    (off : Nat) (bs : Bytes) : ChangesOnly fs (fs.pwrite i off bs) n :=
  ⟨fun _ ↦ rfl, fun _ hj ↦ pwrite_data_of_ne (fun he ↦ hj (by rw [h, he])) off bs,
    fun h _ ↦ h, Nat.le_refl _⟩

section Names

variable [DecidableEq Name]

/-! ## Opening for writing -/

/-- Open `n` with `O_CREAT | O_TRUNC`: an existing inode is emptied in place, a
missing one is allocated.  The inode opened is returned. -/
def openTrunc (fs : FileSystem Name) (n : Name) : FileSystem Name × Nat :=
  match fs.entry n with
  | some i => ({ fs with data := Function.update fs.data i [] }, i)
  | none =>
      ({ entry := Function.update fs.entry n (some fs.fresh)
         data := Function.update fs.data fs.fresh []
         fresh := fs.fresh + 1
         entry_lt := by
           intro m i h
           by_cases hm : m = n
           · subst hm
             rw [Function.update_self] at h
             have := Option.some.inj h
             omega
           · rw [Function.update_of_ne hm] at h
             exact Nat.lt_succ_of_lt (fs.entry_lt h)
         entry_inj := by
           intro m m' i h h'
           by_cases hm : m = n <;> by_cases hm' : m' = n
           · rw [hm, hm']
           · subst hm
             rw [Function.update_self] at h
             rw [Function.update_of_ne hm'] at h'
             exact absurd (fs.entry_lt h') (by have := Option.some.inj h; omega)
           · subst hm'
             rw [Function.update_self] at h'
             rw [Function.update_of_ne hm] at h
             exact absurd (fs.entry_lt h) (by have := Option.some.inj h'; omega)
           · rw [Function.update_of_ne hm] at h
             rw [Function.update_of_ne hm'] at h'
             exact fs.entry_inj h h' }, fs.fresh)

theorem openTrunc_of_some {fs : FileSystem Name} {n : Name} {i : Nat} (h : fs.entry n = some i) :
    (fs.openTrunc n).1.entry = fs.entry ∧ (fs.openTrunc n).1.data = Function.update fs.data i [] ∧
      (fs.openTrunc n).1.fresh = fs.fresh ∧ (fs.openTrunc n).2 = i := by
  unfold openTrunc
  split
  · rename_i j hj
    obtain rfl := Option.some.inj (h.symm.trans hj)
    exact ⟨rfl, rfl, rfl, rfl⟩
  · rename_i hj
    rw [h] at hj
    cases hj

theorem openTrunc_of_none {fs : FileSystem Name} {n : Name} (h : fs.entry n = none) :
    (fs.openTrunc n).1.entry = Function.update fs.entry n (some fs.fresh) ∧
      (fs.openTrunc n).1.data = Function.update fs.data fs.fresh [] ∧
      (fs.openTrunc n).1.fresh = fs.fresh + 1 ∧ (fs.openTrunc n).2 = fs.fresh := by
  unfold openTrunc
  split
  · rename_i j hj
    rw [h] at hj
    cases hj
  · exact ⟨rfl, rfl, rfl, rfl⟩

/-- The file just opened is linked to the inode returned. -/
theorem openTrunc_entry_self (fs : FileSystem Name) (n : Name) :
    (fs.openTrunc n).1.entry n = some (fs.openTrunc n).2 := by
  cases h : fs.entry n with
  | none =>
      obtain ⟨he, -, -, hi⟩ := openTrunc_of_none h
      rw [he, hi, Function.update_self]
  | some i =>
      obtain ⟨he, -, -, hi⟩ := openTrunc_of_some h
      rw [he, hi, h]

/-- The file just opened is empty. -/
theorem openTrunc_data_self (fs : FileSystem Name) (n : Name) :
    (fs.openTrunc n).1.data (fs.openTrunc n).2 = [] := by
  cases h : fs.entry n with
  | none =>
      obtain ⟨-, hd, -, hi⟩ := openTrunc_of_none h
      rw [hd, hi, Function.update_self]
  | some i =>
      obtain ⟨-, hd, -, hi⟩ := openTrunc_of_some h
      rw [hd, hi, Function.update_self]

/-- Opening a file for writing changes that file only. -/
theorem openTrunc_changesOnly (fs : FileSystem Name) (n : Name) :
    ChangesOnly fs (fs.openTrunc n).1 n := by
  cases hn : fs.entry n with
  | none =>
      obtain ⟨he, hd, hf, -⟩ := openTrunc_of_none hn
      refine ⟨fun hm ↦ ?_, fun hj _ ↦ ?_, fun hj hlt ↦ ?_, ?_⟩
      · rw [he, Function.update_of_ne hm]
      · rw [hd, Function.update_of_ne (Nat.ne_of_lt hj)]
      · rw [he, Function.update_self] at hj
        exact absurd hlt (by have := Option.some.inj hj; omega)
      · rw [hf]; exact Nat.le_succ _
  | some i =>
      obtain ⟨he, hd, hf, -⟩ := openTrunc_of_some hn
      refine ⟨fun _ ↦ ?_, fun _ hne ↦ ?_, fun hj _ ↦ ?_, ?_⟩
      · rw [he]
      · rw [hd, Function.update_of_ne fun hji ↦ hne (by rw [hn, hji])]
      · rw [he] at hj
        exact hj
      · exact Nat.le_of_eq hf.symm

/-! ## Writing a whole file -/

/-- The file system in which the file `n` was opened, truncated and given these bytes. -/
def written (fs : FileSystem Name) (n : Name) (bs : Bytes) : FileSystem Name :=
  (fs.openTrunc n).1.pwrite (fs.openTrunc n).2 0 bs

theorem written_entry_self (fs : FileSystem Name) (n : Name) (bs : Bytes) :
    (fs.written n bs).entry n = some (fs.openTrunc n).2 := openTrunc_entry_self fs n

theorem written_content_self (fs : FileSystem Name) (n : Name) (bs : Bytes) :
    (fs.written n bs).content n = some bs := by
  have hdata : (fs.written n bs).data (fs.openTrunc n).2 = bs := by
    simp only [written, pwrite, Function.update_self, openTrunc_data_self]
    exact overwrite_length [] bs
  rw [content, written_entry_self, Option.map_some, hdata]

theorem written_changesOnly (fs : FileSystem Name) (n : Name) (bs : Bytes) :
    ChangesOnly fs (fs.written n bs) n := by
  have hopen := openTrunc_changesOnly fs n
  have hwrite := pwrite_changesOnly (openTrunc_entry_self fs n) 0 bs
  refine ⟨fun hm ↦ ?_, fun hj hne ↦ ?_, fun hj hlt ↦ ?_, ?_⟩
  · exact (hwrite.entry hm).trans (hopen.entry hm)
  · refine (hwrite.data (Nat.lt_of_lt_of_le hj hopen.fresh_le) fun h ↦ hne ?_).trans
      (hopen.data hj hne)
    exact hopen.link h hj
  · exact hopen.link hj hlt
  · exact hopen.fresh_le

/-- Opening a file is writing nothing to it. -/
theorem written_nil (fs : FileSystem Name) (n : Name) : fs.written n [] = (fs.openTrunc n).1 := by
  have hdata : Function.update (fs.openTrunc n).1.data (fs.openTrunc n).2
      (overwrite ((fs.openTrunc n).1.data (fs.openTrunc n).2) 0 []) = (fs.openTrunc n).1.data := by
    conv_rhs => rw [← Function.update_eq_self (fs.openTrunc n).2 (fs.openTrunc n).1.data]
    rw [openTrunc_data_self]
    rfl
  simp only [written, pwrite, hdata]

/-- Bytes written at the end of a file are written behind the others. -/
theorem written_append (fs : FileSystem Name) (n : Name) (bs cs : Bytes) :
    (fs.written n bs).pwrite (fs.openTrunc n).2 bs.length cs = fs.written n (bs ++ cs) := by
  have hover : overwrite (overwrite [] 0 bs) bs.length cs = overwrite [] 0 (bs ++ cs) := by
    have h (d : Bytes) : overwrite [] 0 d = d := overwrite_length [] d
    rw [h, h, overwrite_length]
  simp only [written, pwrite, Function.update_idem, Function.update_self, openTrunc_data_self,
    hover]

/-! ## Renaming and unlinking -/

/-- Remove the name `n`. -/
def unlink (fs : FileSystem Name) (n : Name) : FileSystem Name where
  entry := Function.update fs.entry n none
  data := fs.data
  fresh := fs.fresh
  entry_lt := by
    intro m i h
    by_cases hm : m = n
    · subst hm; rw [Function.update_self] at h; cases h
    · rw [Function.update_of_ne hm] at h; exact fs.entry_lt h
  entry_inj := by
    intro m m' i h h'
    by_cases hm : m = n
    · subst hm; rw [Function.update_self] at h; cases h
    · by_cases hm' : m' = n
      · subst hm'; rw [Function.update_self] at h'; cases h'
      · rw [Function.update_of_ne hm] at h
        rw [Function.update_of_ne hm'] at h'
        exact fs.entry_inj h h'

@[simp] theorem unlink_entry_self (fs : FileSystem Name) (n : Name) :
    (fs.unlink n).entry n = none := Function.update_self ..

theorem unlink_entry_of_ne {fs : FileSystem Name} {m n : Name} (h : m ≠ n) :
    (fs.unlink n).entry m = fs.entry m := Function.update_of_ne h ..

/-- Removing a name changes that file only. -/
theorem unlink_changesOnly (fs : FileSystem Name) (n : Name) : ChangesOnly fs (fs.unlink n) n :=
  { entry := unlink_entry_of_ne
    data := fun _ _ ↦ rfl
    link := fun h _ ↦ by rw [unlink_entry_self] at h; cases h
    fresh_le := Nat.le_refl _ }

/-- Link the inode `i`, which no name is linked to, to the name `n`. -/
private def link (fs : FileSystem Name) (n : Name) (i : Nat) (hi : i < fs.fresh)
    (hfree : ∀ m, fs.entry m ≠ some i) : FileSystem Name where
  entry := Function.update fs.entry n (some i)
  data := fs.data
  fresh := fs.fresh
  entry_lt := by
    intro m j h
    by_cases hm : m = n
    · subst hm; rw [Function.update_self] at h; exact Option.some.inj h ▸ hi
    · rw [Function.update_of_ne hm] at h; exact fs.entry_lt h
  entry_inj := by
    intro m m' j h h'
    by_cases hm : m = n <;> by_cases hm' : m' = n
    · rw [hm, hm']
    · subst hm
      rw [Function.update_self] at h
      rw [Function.update_of_ne hm', ← h] at h'
      exact absurd h' (hfree m')
    · subst hm'
      rw [Function.update_self] at h'
      rw [Function.update_of_ne hm, ← h'] at h
      exact absurd h (hfree m)
    · rw [Function.update_of_ne hm] at h
      rw [Function.update_of_ne hm'] at h'
      exact fs.entry_inj h h'

/-- `rename(2)`: fails when `a` names nothing, and otherwise replaces what `b`
names by what `a` named, in one step. -/
def rename (fs : FileSystem Name) (a b : Name) : Option (FileSystem Name) :=
  match h : fs.entry a with
  | none => none
  | some i =>
      some ((fs.unlink a).link b i (fs.entry_lt h) (fun m hm ↦ by
        by_cases hma : m = a
        · subst hma; rw [unlink_entry_self] at hm; cases hm
        · rw [unlink_entry_of_ne hma] at hm; exact hma (fs.entry_inj hm h)))

theorem rename_isSome {fs : FileSystem Name} {a b : Name} {i : Nat} (h : fs.entry a = some i) :
    ∃ fs', fs.rename a b = some fs' := by
  unfold rename
  split
  · rename_i hn; rw [h] at hn; cases hn
  · exact ⟨_, rfl⟩

/-- All a rename does: the target takes the source's inode, the source is gone,
every other name keeps its link, and no byte changes. -/
theorem rename_eq_some {fs fs' : FileSystem Name} {a b : Name} (hr : fs.rename a b = some fs') :
    ∃ i, fs.entry a = some i ∧
      fs'.entry = Function.update (Function.update fs.entry a none) b (some i) ∧
      fs'.data = fs.data ∧ fs'.fresh = fs.fresh := by
  unfold rename at hr
  split at hr
  · cases hr
  · rename_i i hi
    obtain rfl := Option.some.inj hr
    exact ⟨i, hi, rfl, rfl, rfl⟩

/-- A rename leaves every file but its source and its target the same. -/
theorem rename_sameFile {fs fs' : FileSystem Name} {a b n : Name}
    (hr : fs.rename a b = some fs') (ha : n ≠ a) (hb : n ≠ b) : SameFile fs fs' n := by
  obtain ⟨i, -, he, hd, -⟩ := rename_eq_some hr
  refine ⟨?_, fun _ ↦ by rw [hd]⟩
  rw [he, Function.update_of_ne hb, Function.update_of_ne ha]

/-- An inode a rename leaves linked was linked before, to the same name or to the
source. -/
theorem rename_link {fs fs' : FileSystem Name} {a b n : Name} {j : Nat}
    (hr : fs.rename a b = some fs') (hj : fs'.entry n = some j) :
    n = b ∨ fs.entry n = some j := by
  obtain ⟨i, -, he, -, -⟩ := rename_eq_some hr
  by_cases hb : n = b
  · exact .inl hb
  · rw [he, Function.update_of_ne hb] at hj
    by_cases ha : n = a
    · rw [ha, Function.update_self] at hj; cases hj
    · rw [Function.update_of_ne ha] at hj; exact .inr hj

theorem rename_content_self {fs fs' : FileSystem Name} {a b : Name}
    (hr : fs.rename a b = some fs') : fs'.content b = fs.content a := by
  obtain ⟨i, hi, he, hd, -⟩ := rename_eq_some hr
  have hb : fs'.entry b = some i := by rw [he, Function.update_self]
  rw [content_eq_some hb, content_eq_some hi, hd]

end Names

end FileSystem
